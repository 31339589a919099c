import LatticeKinetics.Fortran.Procedure
import LatticeKinetics.Proofs.Outcome

/-! The lines of rendered code. A comment without an end of line in it becomes one line, and that is
a comment again, whatever it says; so texts of code that differs in such comments have as many lines
and differ in comments only. -/

namespace LatticeKinetics.Fortran

open Text

/-- The lines of a text. What stands behind the last end of line counts as one. -/
def linesOf (text : String) : List (List Char) :=
  text.toList.splitOn '\n'

def isComment (line : List Char) : Bool :=
  (trimLeft line).head? == some '!'

/-- The texts have as many lines, and these are the same unless both are comments. -/
def AgreeInCode (a b : String) : Prop :=
  List.Forall₂ (fun l l' => l = l' ∨ (isComment l = true ∧ isComment l' = true)) (linesOf a)
    (linesOf b)

theorem linesOf_render (width : Nat) (code : Code) :
    linesOf (code.render width) =
      (code.flatMap (·.physical width)).flatMap (·.splitOn '\n') ++ [[]] := by
  unfold linesOf Code.render
  rw [String.toList_join, List.flatMap_map]
  induction code.flatMap (·.physical width) with
  | nil => rfl
  | cons line lines ih =>
    rw [List.flatMap_cons, String.toList_ofList, List.append_assoc, List.singleton_append,
      List.splitOn_append_cons_self, ih, List.flatMap_cons, List.append_assoc]

/-! ### Comments of one line -/

def IsRemark (text : String) : Prop :=
  text ≠ "" ∧ '\n' ∉ text.toList

instance (text : String) : Decidable (IsRemark text) :=
  inferInstanceAs (Decidable (_ ∧ _))

theorem trimRight_subset (cs : List Char) : trimRight cs ⊆ cs := by
  intro c hc
  rw [trimRight, List.mem_reverse] at hc
  exact List.mem_reverse.1 ((List.dropWhile_sublist _).subset hc)

theorem exists_trimRight_append (as bs : List Char) :
    ∃ before, trimRight (as ++ bs) = before ++ trimRight bs := by
  unfold trimRight
  rw [List.reverse_append, List.dropWhile_append]
  split
  · rename_i hblank
    rw [List.isEmpty_iff.1 hblank]
    exact ⟨_, (List.append_nil _).symm⟩
  · rw [List.reverse_append, List.reverse_reverse]
    exact ⟨as, rfl⟩

theorem isComment_append (depth : Nat) (cs : List Char) :
    isComment (spaces depth ++ '!' :: cs) = true := by
  have hlead : ∀ c ∈ spaces depth, isBlank c = true := by
    intro c hc
    rw [List.eq_of_mem_replicate hc]
    decide
  unfold isComment
  rw [trimLeft_append_of_blank _ hlead]
  rfl

theorem isComment_commentLine (depth : Nat) (cs : List Char) :
    isComment (commentLine (spaces depth) cs) = true := by
  unfold commentLine
  split
  · exact isComment_append depth []
  · rw [List.append_assoc]
    exact isComment_append depth _

theorem physical_comment {text : String} (h : IsRemark text) (width level : Nat) :
    Line.physical width ⟨level, .comment text⟩ =
      [commentLine (spaces (width * level)) text.toList] := by
  have hne : text.toList ≠ [] := by simpa using h.1
  have hlines : splitLines text.toList = [text.toList] := by
    unfold splitLines
    rw [List.splitOn_eq_singleton h.2]
    simp [hne]
  change (splitLines text.toList).map _ = _
  rw [hlines]
  rfl

theorem splitOn_commentLine {text : String} (h : IsRemark text) (depth : Nat) :
    (commentLine (spaces depth) text.toList).splitOn '\n' =
      [commentLine (spaces depth) text.toList] := by
  have hne : text.toList ≠ [] := by simpa using h.1
  apply List.splitOn_eq_singleton
  unfold commentLine
  rw [if_neg (by simpa using hne)]
  simp only [List.mem_append, not_or]
  refine ⟨⟨?_, by decide⟩, fun hmem => h.2 (trimRight_subset _ hmem)⟩
  intro hmem
  exact absurd (List.eq_of_mem_replicate hmem) (by decide)

/-! ### Code up to its comments -/

/-- What is left of a line when comments are passed over. -/
def Line.outline (line : Line) : Line :=
  match line.content with
  | .comment _ => { line with content := .comment "" }
  | _ => line

def Line.Plain (line : Line) : Prop :=
  ∀ text, line.content = .comment text → IsRemark text

namespace Code

def outline (code : Code) : Code :=
  code.map Line.outline

def Plain (code : Code) : Prop :=
  ∀ line ∈ code, line.Plain

end Code

theorem Line.outline_eq {l l' : Line} (h : l.outline = l'.outline) :
    l = l' ∨ ∃ level text text', l = ⟨level, .comment text⟩ ∧ l' = ⟨level, .comment text'⟩ := by
  obtain ⟨level, content⟩ := l
  obtain ⟨level', content'⟩ := l'
  cases content <;> cases content' <;> simp_all [outline]

theorem Line.forall₂_physical {l l' : Line} (hl : l.Plain) (hl' : l'.Plain)
    (h : l.outline = l'.outline) (width : Nat) :
    List.Forall₂ (fun a b => a = b ∨ (isComment a = true ∧ isComment b = true))
      ((l.physical width).flatMap (·.splitOn '\n'))
      ((l'.physical width).flatMap (·.splitOn '\n')) := by
  obtain rfl | ⟨level, text, text', rfl, rfl⟩ := outline_eq h
  · exact List.forall₂_same.2 fun _ _ => .inl rfl
  · have htext : IsRemark text := hl text rfl
    have htext' : IsRemark text' := hl' text' rfl
    rw [physical_comment htext, physical_comment htext', List.flatMap_singleton,
      List.flatMap_singleton, splitOn_commentLine htext, splitOn_commentLine htext']
    exact .cons (.inr ⟨isComment_commentLine _ _, isComment_commentLine _ _⟩) .nil

namespace Code

theorem agreeInCode_render {c c' : Code} (hc : c.Plain) (hc' : c'.Plain)
    (h : c.outline = c'.outline) (width : Nat) :
    AgreeInCode (c.render width) (c'.render width) := by
  have hlines : List.Forall₂ (fun a b => a = b ∨ (isComment a = true ∧ isComment b = true))
      ((c.flatMap (·.physical width)).flatMap (·.splitOn '\n'))
      ((c'.flatMap (·.physical width)).flatMap (·.splitOn '\n')) := by
    induction c generalizing c' with
    | nil =>
      obtain rfl : c' = [] := List.map_eq_nil_iff.1 h.symm
      exact .nil
    | cons l c ih =>
      obtain ⟨l', c', rfl, hl, hrest⟩ := List.map_eq_cons_iff.1 h.symm
      rw [List.flatMap_cons, List.flatMap_cons, List.flatMap_append, List.flatMap_append]
      have hplain := List.forall_mem_cons.1 hc
      have hplain' := List.forall_mem_cons.1 hc'
      exact List.rel_append (Line.forall₂_physical hplain.1 hplain'.1 hl.symm width)
        (ih hplain.2 hplain'.2 hrest.symm)
  unfold AgreeInCode
  rw [linesOf_render, linesOf_render]
  exact List.rel_append hlines (.cons (.inl rfl) .nil)

theorem commentLine_mem_linesOf {c : Code} {level : Nat} {text : String}
    (hmem : ⟨level, .comment text⟩ ∈ c) (h : IsRemark text) (width : Nat) :
    commentLine (spaces (width * level)) text.toList ∈ linesOf (c.render width) := by
  rw [linesOf_render]
  apply List.mem_append_left
  refine List.mem_flatMap.2 ⟨commentLine (spaces (width * level)) text.toList, ?_, ?_⟩
  · refine List.mem_flatMap.2 ⟨_, hmem, ?_⟩
    rw [physical_comment h]
    exact List.mem_singleton_self _
  · rw [splitOn_commentLine h]
    exact List.mem_singleton_self _

@[simp] theorem outline_append (c d : Code) : outline (c ++ d) = c.outline ++ d.outline :=
  List.map_append

@[simp] theorem outline_comment (text : String) : (comment text).outline = comment "" :=
  rfl

@[simp] theorem outline_indent (c : Code) : c.indent.outline = c.outline.indent := by
  unfold outline indent
  rw [List.map_map, List.map_map]
  apply List.map_congr_left
  intro line _
  obtain ⟨level, content⟩ := line
  cases content <;> rfl

theorem outline_block (opening closing : String) (body : Code) :
    (block opening closing body).outline = block opening closing body.outline := by
  unfold block
  rw [outline_append, outline_append, outline_indent]
  rfl

@[simp] theorem plain_append {c d : Code} : Plain (c ++ d) ↔ c.Plain ∧ d.Plain :=
  List.forall_mem_append

@[simp] theorem plain_comment {text : String} : (comment text).Plain ↔ IsRemark text := by
  simp [Plain, comment, Line.Plain]

@[simp] theorem plain_blank : blank.Plain := by
  simp [Plain, blank, Line.Plain]

@[simp] theorem plain_statements (texts : List String) : (statements texts).Plain := by
  simp [Plain, statements, Line.Plain]

@[simp] theorem plain_statement (text : String) : (statement text).Plain :=
  plain_statements [text]

@[simp] theorem plain_indent {c : Code} : c.indent.Plain ↔ c.Plain := by
  simp [Plain, indent, Line.Plain]

@[simp] theorem plain_block {opening closing : String} {body : Code} :
    (block opening closing body).Plain ↔ body.Plain := by
  simp [block]

end Code

/-! ### Characters of the text -/

def Content.text : Content → String
  | .statement text | .comment text => text
  | .blank => ""

def Line.characters (line : Line) : List Char :=
  trimRight line.content.text.toList

theorem sublist_of_mem_splitOn {cs line : List Char} {sep : Char} (h : line ∈ cs.splitOn sep) :
    line.Sublist cs := by
  induction cs generalizing line with
  | nil =>
    obtain rfl : line = [] := by simpa using h
    exact List.Sublist.refl _
  | cons c cs ih =>
    obtain ⟨first, others, hparts⟩ := List.exists_cons_of_ne_nil (List.splitOn_ne_nil sep cs)
    rw [List.splitOn_cons_eq_if_modifyHead, hparts] at h
    rw [hparts] at ih
    split at h
    · rcases List.mem_cons.1 h with rfl | h
      · exact List.nil_sublist _
      · exact (ih h).cons c
    · rw [List.modifyHead_cons] at h
      rcases List.mem_cons.1 h with rfl | h
      · exact (ih List.mem_cons_self).cons_cons c
      · exact (ih (List.mem_cons_of_mem _ h)).cons c

theorem mem_of_mem_breakStatement {lead continued cs piece : List Char} {c : Char}
    (h : piece ∈ breakStatement lead continued cs) (hc : c ∈ piece) :
    c ∈ lead ∨ c ∈ continued ∨ c ∈ [' ', '&'] ∨ c ∈ cs := by
  fun_induction breakStatement lead continued cs with
  | case1 lead cs hbreak =>
    obtain rfl := List.mem_singleton.1 h
    grind
  | case2 lead cs i hbreak ih =>
    rcases List.mem_cons.1 h with rfl | h
    · grind [List.mem_of_mem_take]
    · grind [List.mem_of_mem_drop]

theorem Line.mem_of_mem_physical {l : Line} (hl : l.Plain) {width : Nat} {line : List Char}
    {c : Char} (h : line ∈ l.physical width) (hc : c ∈ line) :
    c ∈ [' ', '&', '!'] ∨ c ∈ l.characters := by
  obtain ⟨level, content⟩ := l
  have hspaces (n : Nat) : c ∈ spaces n → c = ' ' := List.eq_of_mem_replicate
  cases content with
  | blank =>
    obtain rfl := List.mem_singleton.1 h
    exact absurd hc List.not_mem_nil
  | statement text =>
    have hpiece := mem_of_mem_breakStatement h hc
    simp only [List.mem_append] at hpiece
    grind [characters, Content.text]
  | comment text =>
    rw [physical_comment (hl text rfl)] at h
    obtain rfl := List.mem_singleton.1 h
    have hne : text.toList ≠ [] := by simpa using (hl text rfl).1
    rw [commentLine, if_neg (by simpa using hne)] at hc
    simp only [List.mem_append] at hc
    grind [characters, Content.text]

/-- Apart from blanks and the signs for comments and continued lines, the text is made up of
characters of the code. -/
theorem Code.mem_of_mem_linesOf {code : Code} (h : code.Plain) {width : Nat} {line : List Char}
    {c : Char} (hline : line ∈ linesOf (code.render width)) (hc : c ∈ line) :
    c ∈ [' ', '&', '!'] ∨ ∃ l ∈ code, c ∈ l.characters := by
  rw [linesOf_render, List.mem_append] at hline
  rcases hline with hline | hline
  · obtain ⟨physical, hphysical, hline⟩ := List.mem_flatMap.1 hline
    obtain ⟨l, hl, hphysical⟩ := List.mem_flatMap.1 hphysical
    have hmem := (sublist_of_mem_splitOn hline).subset hc
    exact (Line.mem_of_mem_physical (h l hl) hphysical hmem).imp_right fun hc => ⟨l, hl, hc⟩
  · obtain rfl := List.mem_singleton.1 hline
    exact absurd hc List.not_mem_nil

theorem Body.plain_code (body : Body) : body.code.Plain := by
  simp [Code.Plain, Body.code, Line.Plain]

theorem Procedure.plain_code (p : Procedure) : p.code.Plain := by
  simp [Procedure.code, Body.plain_code]

namespace SourceModule

theorem not_mem_toDigits (n : Nat) : '\n' ∉ Nat.toDigits 16 n := by
  induction n using Nat.strongRecOn with
  | ind n ih =>
    rw [Nat.toDigits_eq_if (by decide)]
    split
    · simp
    · simp [ih (n / 16) (by omega)]

theorem isRemark_fingerprint (word : UInt64) :
    IsRemark s!"model fingerprint: {hex16 word}" := by
  have htext : (s!"model fingerprint: {hex16 word}").toList =
      "model fingerprint: ".toList ++ (hex16 word).toList := String.toList_append
  refine ⟨?_, ?_⟩
  · intro hempty
    rw [hempty] at htext
    exact absurd htext (by simp)
  · rw [htext]
    simp only [hex16, String.toList_ofList, List.mem_append, not_or]
    refine ⟨by decide, ?_, not_mem_toDigits _⟩
    intro hmem
    exact absurd (List.eq_of_mem_replicate hmem) (by decide)

theorem plain_code {s : SourceModule} (htitle : IsRemark s.title)
    (hdeclarations : s.declarations.Plain) : s.code.Plain := by
  have hprogram : IsRemark s!"generated by {programName} {programVersion}, do not edit" := by
    decide
  have hprocedures : Code.Plain (s.procedures.flatMap fun p => Code.blank ++ p.code) := by
    intro line hline
    obtain ⟨p, -, hp⟩ := List.mem_flatMap.1 hline
    exact Code.plain_append.2 ⟨Code.plain_blank, p.plain_code⟩ line hp
  simp [code, header, htitle, hprogram, isRemark_fingerprint, hdeclarations, hprocedures]

theorem outline_code {s s' : SourceModule} (hname : s.name = s'.name)
    (himports : s.imports = s'.imports)
    (hdeclarations : s.declarations.outline = s'.declarations.outline)
    (hprocedures : s.procedures = s'.procedures) : s.code.outline = s'.code.outline := by
  simp only [code, header, Code.outline_append, Code.outline_comment, Code.outline_block, hname,
    himports, hdeclarations, hprocedures]

end SourceModule

end LatticeKinetics.Fortran
