import LatticeKinetics.Proofs.SourceLines
import Mathlib.Tactic.MkIffOfInductiveProp

/-! When the lines of a broken statement fit. A statement is broken at spaces only, so what counts
is the length of its words: where each of them has room behind the indentation of a continued line,
no line is too long. -/

namespace LatticeKinetics.Fortran

open Text

/-! ### Where a statement is broken -/

theorem lastSpace?_append_cons {as bs : List Char} (h : ' ' ∉ bs) :
    lastSpace? (as ++ ' ' :: bs) = some as.length := by
  have hrest : bs.reverse.findIdx? (· == ' ') = none := by
    rw [List.findIdx?_eq_none_iff]
    intro c hc
    rw [beq_eq_false_iff_ne]
    rintro rfl
    exact h (List.mem_reverse.1 hc)
  unfold lastSpace?
  rw [List.reverse_append, List.reverse_cons, List.append_assoc, List.findIdx?_append, hrest,
    List.singleton_append, List.findIdx?_cons]
  simp

theorem lastSpace?_eq_none {cs : List Char} (h : ' ' ∉ cs) : lastSpace? cs = none := by
  unfold lastSpace?
  rw [Option.map_eq_none_iff, List.findIdx?_eq_none_iff]
  intro c hc
  rw [beq_eq_false_iff_ne]
  rintro rfl
  exact h (List.mem_reverse.1 hc)

theorem window_append {as bs : List Char} {room : Nat} (h : byteLength as ≤ room) :
    window room (as ++ bs) = as ++ window (room - byteLength as) bs := by
  induction as generalizing room with
  | nil => rfl
  | cons a as ih =>
    rw [byteLength_cons] at h
    rw [List.cons_append, window, if_pos (by omega), ih (by omega), byteLength_cons,
      List.cons_append, Nat.sub_sub]

theorem isPrefix_window (room : Nat) (cs : List Char) : window room cs <+: cs := by
  induction cs generalizing room with
  | nil => exact List.nil_prefix
  | cons c cs ih =>
    unfold window
    split
    · exact List.cons_prefix_cons.2 ⟨rfl, ih _⟩
    · exact List.nil_prefix

theorem byteLength_window_le (room : Nat) (cs : List Char) :
    byteLength (window room cs) ≤ room := by
  induction cs generalizing room with
  | nil => exact Nat.zero_le _
  | cons c cs ih =>
    unfold window
    split
    · have := ih (room - c.utf8Size)
      rw [byteLength_cons]
      omega
    · exact Nat.zero_le _

theorem exists_lastSpace? {cs : List Char} (h : ' ' ∈ cs) :
    ∃ as bs, cs = as ++ ' ' :: bs ∧ ' ' ∉ bs ∧ lastSpace? cs = some as.length := by
  obtain ⟨bs, as, hcs, hbs⟩ := List.eq_append_cons_of_mem (List.mem_reverse.2 h)
  have hsplit : cs = as.reverse ++ ' ' :: bs.reverse := by
    rw [← List.reverse_reverse cs, hcs]
    simp
  have hrest : ' ' ∉ bs.reverse := by simpa using hbs
  refine ⟨as.reverse, bs.reverse, hsplit, hrest, ?_⟩
  rw [hsplit]
  exact lastSpace?_append_cons hrest

theorem breakAt?_eq_some {room i : Nat} {cs : List Char} (h : breakAt? room cs = some i) :
    ∃ as bs, cs = as ++ ' ' :: bs ∧ as.length = i ∧ byteLength as < room := by
  unfold breakAt? at h
  split at h
  · contradiction
  · obtain ⟨hspace, -⟩ := Option.filter_eq_some_iff.1 h
    have hmem : ' ' ∈ window room cs := by
      by_contra hmem
      rw [lastSpace?_eq_none hmem] at hspace
      contradiction
    obtain ⟨as, bs, hwindow, -, hlast⟩ := exists_lastSpace? hmem
    obtain ⟨more, hmore⟩ := isPrefix_window room cs
    have hle := byteLength_window_le room cs
    rw [hwindow, byteLength_append, byteLength_cons] at hle
    refine ⟨as, bs ++ more, ?_, Option.some.inj (hlast.symm.trans hspace), ?_⟩
    · rw [← hmore, hwindow, List.append_assoc, List.cons_append]
    · have : ' '.utf8Size = 1 := by decide
      omega

theorem exists_breakAt? {room : Nat} {as bs : List Char} (hne : as ≠ [])
    (has : byteLength as < room) (hroom : room < byteLength (as ++ ' ' :: bs)) :
    ∃ i, breakAt? room (as ++ ' ' :: bs) = some i ∧ as.length ≤ i := by
  have hpos : 0 < as.length := List.length_pos_of_ne_nil hne
  have hsize : byteLength (as ++ [' ']) = byteLength as + 1 := by
    rw [byteLength_append]
    rfl
  have hwindow : window room (as ++ ' ' :: bs) =
      as ++ ' ' :: window (room - (byteLength as + 1)) bs := by
    rw [List.append_cons, window_append (by omega), hsize, List.append_assoc,
      List.singleton_append]
  have hlast : ∃ i, lastSpace? (window room (as ++ ' ' :: bs)) = some i ∧ as.length ≤ i := by
    rw [hwindow]
    by_cases hmem : ' ' ∈ window (room - (byteLength as + 1)) bs
    · obtain ⟨more, rest, hmore, hrest, -⟩ := exists_lastSpace? hmem
      refine ⟨(as ++ ' ' :: more).length, ?_, by simp⟩
      rw [hmore, ← List.cons_append, ← List.append_assoc]
      exact lastSpace?_append_cons hrest
    · exact ⟨_, lastSpace?_append_cons hmem, Nat.le_refl _⟩
  obtain ⟨i, hlast, hle⟩ := hlast
  refine ⟨i, ?_, hle⟩
  unfold breakAt?
  rw [if_neg (by omega), hlast, Option.filter_some, if_pos (by simpa using by omega)]

/-! ### Words -/

def Solid (cs : List Char) : Prop :=
  ∀ c ∈ cs, isBlank c = false

instance (cs : List Char) : Decidable (Solid cs) :=
  List.decidableBAll _ cs

@[simp] theorem solid_append {as bs : List Char} : Solid (as ++ bs) ↔ Solid as ∧ Solid bs :=
  List.forall_mem_append

@[simp] theorem solid_cons {c : Char} {cs : List Char} :
    Solid (c :: cs) ↔ isBlank c = false ∧ Solid cs :=
  List.forall_mem_cons

@[mk_iff]
structure IsWord (size : Nat) (word : List Char) : Prop where
  ne_nil : word ≠ []
  solid : Solid word
  short : byteLength word < size

instance (size : Nat) (word : List Char) : Decidable (IsWord size word) :=
  decidable_of_iff _ (isWord_iff size word).symm

def Spaced (size : Nat) (cs : List Char) : Prop :=
  ∀ word ∈ cs.splitOn ' ', IsWord size word

instance (size : Nat) (cs : List Char) : Decidable (Spaced size cs) :=
  List.decidableBAll _ (cs.splitOn ' ')

theorem IsWord.mono {size larger : Nat} {word : List Char} (h : IsWord size word)
    (hle : size ≤ larger) : IsWord larger word :=
  ⟨h.ne_nil, h.solid, Nat.lt_of_lt_of_le h.short hle⟩

theorem IsWord.space_not_mem {size : Nat} {word : List Char} (h : IsWord size word) :
    ' ' ∉ word := fun hmem => absurd (h.solid ' ' hmem) (by decide)

theorem Spaced.mono {size larger : Nat} {cs : List Char} (h : Spaced size cs)
    (hle : size ≤ larger) : Spaced larger cs :=
  fun word hword => (h word hword).mono hle

theorem spaced_word {size : Nat} {word : List Char} (h : IsWord size word) :
    Spaced size word := by
  intro other hother
  rw [List.splitOn_eq_singleton h.space_not_mem] at hother
  rw [List.mem_singleton.1 hother]
  exact h

theorem spaced_append_cons {size : Nat} {as bs : List Char} :
    Spaced size (as ++ ' ' :: bs) ↔ Spaced size as ∧ Spaced size bs := by
  unfold Spaced
  rw [List.splitOn_append_cons_self, List.forall_mem_append]

theorem isWord_of_spaced {size : Nat} {word : List Char} (h : Spaced size word)
    (hspace : ' ' ∉ word) : IsWord size word := by
  apply h
  rw [List.splitOn_eq_singleton hspace]
  exact List.mem_singleton_self word

theorem Spaced.exists_first {size : Nat} {cs : List Char} (h : Spaced size cs) :
    IsWord size cs ∨ ∃ word rest, cs = word ++ ' ' :: rest ∧ IsWord size word := by
  by_cases hmem : ' ' ∈ cs
  · obtain ⟨word, rest, rfl, hspace⟩ := List.eq_append_cons_of_mem hmem
    exact .inr ⟨word, rest, rfl, isWord_of_spaced (spaced_append_cons.1 h).1 hspace⟩
  · exact .inl (isWord_of_spaced h hmem)

theorem Spaced.exists_last {size : Nat} {cs : List Char} (h : Spaced size cs) :
    ∃ before word, cs = before ++ word ∧ IsWord size word := by
  by_cases hmem : ' ' ∈ cs
  · obtain ⟨as, word, rfl, hspace, -⟩ := exists_lastSpace? hmem
    exact ⟨as ++ [' '], word, by simp, isWord_of_spaced (spaced_append_cons.1 h).2 hspace⟩
  · exact ⟨[], cs, rfl, isWord_of_spaced h hmem⟩

theorem trimRight_append_of_spaced {size : Nat} (as : List Char) {bs : List Char}
    (h : Spaced size bs) : trimRight (as ++ bs) = as ++ bs := by
  obtain ⟨before, word, rfl, hword⟩ := h.exists_last
  obtain ⟨c, rest, hrest⟩ := List.exists_cons_of_ne_nil (List.reverse_ne_nil_iff.2 hword.ne_nil)
  have hc : isBlank c = false := by
    apply hword.solid
    rw [← List.mem_reverse, hrest]
    exact List.mem_cons_self
  unfold trimRight
  rw [← List.append_assoc, List.reverse_append, hrest, List.cons_append,
    List.dropWhile_cons_of_neg (by simp [hc]), ← List.cons_append, ← hrest, ← List.reverse_append,
    List.reverse_reverse]

/-! ### Lines that fit -/

theorem byteLength_le_of_sublist {as bs : List Char} (h : as.Sublist bs) :
    byteLength as ≤ byteLength bs := by
  induction h with
  | slnil => exact Nat.le_refl _
  | cons b _ ih =>
    rw [byteLength_cons]
    omega
  | cons_cons b _ ih =>
    rw [byteLength_cons, byteLength_cons]
    omega

section Breaking

variable {lead continued : List Char}

theorem breakStatement_of_none {cs : List Char} (h : breakAt? (roomAfter lead) cs = none) :
    breakStatement lead continued cs = [lead ++ cs] := by
  rw [breakStatement]
  split
  · rfl
  · rename_i hbreak
    rw [h] at hbreak
    contradiction

theorem breakStatement_of_room {cs : List Char} (h : byteLength cs ≤ roomAfter lead) :
    breakStatement lead continued cs = [lead ++ cs] :=
  breakStatement_of_none (if_pos h)

theorem fits_of_room {cs : List Char} (hlead : byteLength lead = lead.length)
    (hle : lead.length + 2 ≤ maxLine) (h : byteLength cs ≤ roomAfter lead) :
    ∀ line ∈ breakStatement lead continued cs, byteLength line ≤ maxLine := by
  rw [breakStatement_of_room h, List.forall_mem_singleton, byteLength_append, hlead]
  unfold roomAfter at h
  omega

theorem length_le_of_lt_roomAfter {n : Nat} (h : n < roomAfter lead) :
    lead.length + 2 ≤ maxLine := by
  unfold roomAfter at h
  omega

theorem breakStatement_of_breakAt? {as bs : List Char}
    (hbreak : breakAt? (roomAfter lead) (as ++ ' ' :: bs) = some as.length) :
    breakStatement lead continued (as ++ ' ' :: bs) =
      (lead ++ as ++ [' ', '&']) :: breakStatement continued continued bs := by
  have hdrop : (as ++ ' ' :: bs).drop (as.length + 1) = bs := by
    rw [List.append_cons]
    exact List.drop_left' (by simp)
  rw [breakStatement]
  split
  · rename_i hnone
    rw [hnone] at hbreak
    contradiction
  · rename_i i hi
    obtain rfl : i = as.length := Option.some.inj (hi.symm.trans hbreak)
    rw [List.take_left, hdrop]

/-- Where the first word has no room, nothing is broken any more. -/
theorem breakStatement_of_long_word {as bs : List Char} (hspace : ' ' ∉ as)
    (hlong : roomAfter lead < byteLength as) :
    breakStatement lead continued (as ++ bs) = [lead ++ (as ++ bs)] := by
  have hwindow : window (roomAfter lead) (as ++ bs) <+: as := by
    rcases List.prefix_or_prefix_of_prefix (isPrefix_window (roomAfter lead) (as ++ bs))
      (List.prefix_append as bs) with hprefix | hprefix
    · exact hprefix
    · have hle := byteLength_le_of_sublist hprefix.sublist
      have := byteLength_window_le (roomAfter lead) (as ++ bs)
      omega
  have hlast := lastSpace?_eq_none fun hmem => hspace (hwindow.subset hmem)
  apply breakStatement_of_none
  unfold breakAt?
  split
  · rfl
  · rw [hlast, Option.filter_none]

theorem byteLength_broken_le {as : List Char} (hlead : byteLength lead = lead.length)
    (has : byteLength as < roomAfter lead) : byteLength (lead ++ as ++ [' ', '&']) ≤ maxLine := by
  rw [byteLength_append, byteLength_append, hlead]
  change lead.length + byteLength as + 2 ≤ maxLine
  unfold roomAfter at has
  omega

theorem fits_of_breakAt? {as bs : List Char} (hlead : byteLength lead = lead.length)
    (hbreak : breakAt? (roomAfter lead) (as ++ ' ' :: bs) = some as.length)
    (has : byteLength as < roomAfter lead)
    (hrest : ∀ line ∈ breakStatement continued continued bs, byteLength line ≤ maxLine) :
    ∀ line ∈ breakStatement lead continued (as ++ ' ' :: bs), byteLength line ≤ maxLine := by
  rw [breakStatement_of_breakAt? hbreak, List.forall_mem_cons]
  exact ⟨byteLength_broken_le hlead has, hrest⟩

/-- Words that have room on continued lines go into lines that fit. -/
theorem continued_fits (hcontinued : byteLength continued = continued.length) {cs : List Char}
    (h : Spaced (roomAfter continued) cs) :
    ∀ line ∈ breakStatement continued continued cs, byteLength line ≤ maxLine := by
  by_cases hroom : byteLength cs ≤ roomAfter continued
  · obtain ⟨_, _, -, hword⟩ := h.exists_last
    exact fits_of_room hcontinued (length_le_of_lt_roomAfter hword.short) hroom
  · rcases h.exists_first with hword | ⟨word, rest, hcs, hword⟩
    · exact absurd (Nat.le_of_lt hword.short) hroom
    · obtain ⟨i, hbreak, -⟩ := exists_breakAt? hword.ne_nil hword.short
        (hcs ▸ Nat.lt_of_not_le hroom)
      rw [← hcs] at hbreak
      obtain ⟨as, bs, hsplit, rfl, has⟩ := breakAt?_eq_some hbreak
      have hrest : Spaced (roomAfter continued) bs := (spaced_append_cons.1 (hsplit ▸ h)).2
      rw [hsplit] at hbreak
      rw [hsplit]
      exact fits_of_breakAt? hcontinued hbreak has (continued_fits hcontinued hrest)
termination_by cs.length
decreasing_by
  rw [hsplit, List.length_append, List.length_cons]
  omega

/-- The words of the first line need no room on a continued one. -/
theorem fits_of_head (hlead : byteLength lead = lead.length)
    (hcontinued : byteLength continued = continued.length) {as bs : List Char} (hne : as ≠ [])
    (has : byteLength as < roomAfter lead) (h : Spaced (roomAfter continued) bs) :
    ∀ line ∈ breakStatement lead continued (as ++ ' ' :: bs), byteLength line ≤ maxLine := by
  by_cases hroom : byteLength (as ++ ' ' :: bs) ≤ roomAfter lead
  · exact fits_of_room hlead (length_le_of_lt_roomAfter has) hroom
  · obtain ⟨i, hbreak, hle⟩ := exists_breakAt? hne has (Nat.lt_of_not_le hroom)
    obtain ⟨as', bs', hsplit, rfl, has'⟩ := breakAt?_eq_some hbreak
    have hrest : Spaced (roomAfter continued) bs' := by
      rcases List.append_eq_append_iff.1 hsplit with ⟨more, -, htail⟩ | ⟨more, hmore, htail⟩
      · cases more with
        | nil => exact (List.cons.inj htail).2 ▸ h
        | cons c more =>
          rw [(List.cons.inj htail).2] at h
          exact (spaced_append_cons.1 h).2
      · obtain rfl : more = [] := by
          rw [hmore, List.length_append] at hle
          exact List.length_eq_zero_iff.1 (by omega)
        exact (List.cons.inj htail).2 ▸ h
    rw [hsplit] at hbreak ⊢
    exact fits_of_breakAt? hlead hbreak has' (continued_fits hcontinued hrest)

theorem fits_of_spaced (hlead : byteLength lead = lead.length)
    (hcontinued : byteLength continued = continued.length)
    (hroom : roomAfter continued ≤ roomAfter lead) {cs : List Char}
    (h : Spaced (roomAfter continued) cs) :
    ∀ line ∈ breakStatement lead continued cs, byteLength line ≤ maxLine := by
  rcases h.exists_first with hword | ⟨word, rest, rfl, hword⟩
  · have hshort := Nat.lt_of_lt_of_le hword.short hroom
    exact fits_of_room hlead (length_le_of_lt_roomAfter hshort) (Nat.le_of_lt hshort)
  · exact fits_of_head hlead hcontinued hword.ne_nil (Nat.lt_of_lt_of_le hword.short hroom)
      (spaced_append_cons.1 h).2

end Breaking

/-! ### Code that fits -/

theorem trimRight_sublist (cs : List Char) : (trimRight cs).Sublist cs := by
  rw [← List.reverse_sublist, trimRight, List.reverse_reverse]
  exact List.dropWhile_sublist _

theorem byteLength_spaces (count : Nat) : byteLength (spaces count) = count := by
  induction count with
  | zero => rfl
  | succ count ih =>
    rw [spaces, List.replicate_succ, byteLength_cons]
    change 1 + byteLength (spaces count) = _
    omega

/-- No line of the content is too long when it stands at a level of code that is indented by `width`
spaces a level. Comments are not asked about. -/
def Content.Fits (width level : Nat) : Content → Prop
  | .statement text =>
    ∀ line ∈ Line.physical width ⟨level, .statement text⟩, byteLength line ≤ maxLine
  | _ => True

section Statements

variable {width level : Nat} {text : String}

theorem byteLength_lead :
    byteLength (spaces (width * level)) = (spaces (width * level)).length := by
  rw [byteLength_spaces, spaces, List.length_replicate]

theorem byteLength_continued :
    byteLength (spaces (width * level) ++ spaces width ++ ['&', ' ']) =
      (spaces (width * level) ++ spaces width ++ ['&', ' ']).length := by
  have hsign : byteLength ['&', ' '] = 2 := by decide
  rw [byteLength_append, byteLength_append, byteLength_spaces, byteLength_spaces, hsign]
  simp [spaces]

theorem roomAfter_lead : roomAfter (spaces (width * level)) = 98 - width * level := by
  simp [roomAfter, spaces, maxLine]

theorem roomAfter_continued :
    roomAfter (spaces (width * level) ++ spaces width ++ ['&', ' ']) =
      96 - width * (level + 1) := by
  rw [Nat.mul_succ]
  simp [roomAfter, spaces, maxLine]

theorem fits_statement_iff : (Content.statement text).Fits width level ↔
    ∀ line ∈ breakStatement (spaces (width * level))
      (spaces (width * level) ++ spaces width ++ ['&', ' ']) (trimRight text.toList),
      byteLength line ≤ maxLine :=
  Iff.rfl

theorem fits_of_words (h : Spaced (96 - width * (level + 1)) text.toList) :
    (Content.statement text).Fits width level := by
  have htrim : trimRight text.toList = text.toList := trimRight_append_of_spaced [] h
  rw [fits_statement_iff, htrim]
  apply fits_of_spaced byteLength_lead byteLength_continued
  · rw [roomAfter_lead, roomAfter_continued, Nat.mul_succ]
    omega
  · rw [roomAfter_continued]
    exact h

theorem fits_of_first_words {as bs : List Char} (htext : text.toList = as ++ ' ' :: bs)
    (hne : as ≠ []) (has : width * level + byteLength as < 98)
    (h : Spaced (96 - width * (level + 1)) bs) : (Content.statement text).Fits width level := by
  have htrim : trimRight text.toList = as ++ ' ' :: bs := by
    rw [htext, List.append_cons]
    exact trimRight_append_of_spaced _ h
  rw [fits_statement_iff, htrim]
  apply fits_of_head byteLength_lead byteLength_continued hne
  · rw [roomAfter_lead]
    omega
  · rw [roomAfter_continued]
    exact h

theorem fits_of_line (h : width * level + byteLength text.toList ≤ 98) :
    (Content.statement text).Fits width level := by
  have htrim := byteLength_le_of_sublist (trimRight_sublist text.toList)
  rw [fits_statement_iff]
  apply fits_of_room byteLength_lead
  · rw [spaces, List.length_replicate]
    unfold maxLine
    omega
  · rw [roomAfter_lead]
    omega

end Statements

namespace Code

def Fits (width base : Nat) (code : Code) : Prop :=
  ∀ line ∈ code, line.content.Fits width (base + line.level)

variable {width base : Nat}

@[simp] theorem fits_append {c d : Code} :
    Fits width base (c ++ d) ↔ c.Fits width base ∧ d.Fits width base :=
  List.forall_mem_append

@[simp] theorem fits_indent {c : Code} : c.indent.Fits width base ↔ c.Fits width (base + 1) := by
  simp only [Fits, indent, List.forall_mem_map, Nat.add_assoc, Nat.add_comm 1]

@[simp] theorem fits_comment (text : String) : (comment text).Fits width base :=
  List.forall_mem_singleton.2 trivial

@[simp] theorem fits_blank : blank.Fits width base :=
  List.forall_mem_singleton.2 trivial

@[simp] theorem fits_statements {texts : List String} :
    (statements texts).Fits width base ↔
      ∀ text ∈ texts, (Content.statement text).Fits width base := by
  simp [Fits, statements]

@[simp] theorem fits_statement {text : String} :
    (statement text).Fits width base ↔ (Content.statement text).Fits width base := by
  simp [Fits, statement]

theorem fits_block {opening closing : String} {body : Code} :
    (block opening closing body).Fits width base ↔
      ((Content.statement opening).Fits width base ∧ body.Fits width (base + 1)) ∧
        (Content.statement closing).Fits width base := by
  simp [block, and_assoc]

theorem fits_flatMap {α : Type} {as : List α} {f : α → Code} :
    Fits width base (as.flatMap f) ↔ ∀ a ∈ as, (f a).Fits width base := by
  unfold Fits
  simp only [List.mem_flatMap]
  constructor
  · exact fun h a ha line hline => h line ⟨a, ha, hline⟩
  · rintro h line ⟨a, ha, hline⟩
    exact h a ha line hline

theorem mem_linesOf {code : Code} {l : Line} (hl : l ∈ code) {line : List Char}
    (hline : line ∈ l.physical width) (hend : '\n' ∉ line) :
    line ∈ linesOf (code.render width) := by
  rw [linesOf_render]
  apply List.mem_append_left
  refine List.mem_flatMap.2 ⟨line, List.mem_flatMap.2 ⟨l, hl, hline⟩, ?_⟩
  rw [List.splitOn_eq_singleton hend]
  exact List.mem_singleton_self line

theorem line_fits {code : Code} (hplain : code.Plain) (h : code.Fits width 0) {line : List Char}
    (hline : line ∈ linesOf (code.render width)) :
    isComment line = true ∨ byteLength line ≤ maxLine := by
  rw [linesOf_render, List.mem_append] at hline
  rcases hline with hline | hline
  · obtain ⟨physical, hphysical, hline⟩ := List.mem_flatMap.1 hline
    obtain ⟨⟨level, content⟩, hl, hphysical⟩ := List.mem_flatMap.1 hphysical
    cases content with
    | blank =>
      obtain rfl := List.mem_singleton.1 hphysical
      obtain rfl : line = [] := by simpa using hline
      exact .inr (Nat.zero_le _)
    | statement text =>
      have hfits : (Content.statement text).Fits width (0 + level) := h _ hl
      rw [Nat.zero_add] at hfits
      have hle := byteLength_le_of_sublist (sublist_of_mem_splitOn hline)
      exact .inr (Nat.le_trans hle (hfits physical hphysical))
    | comment text =>
      have hremark : IsRemark text := hplain _ hl text rfl
      rw [physical_comment hremark] at hphysical
      obtain rfl := List.mem_singleton.1 hphysical
      rw [splitOn_commentLine hremark] at hline
      obtain rfl := List.mem_singleton.1 hline
      exact .inl (isComment_commentLine _ _)
  · obtain rfl := List.mem_singleton.1 hline
    exact .inr (Nat.zero_le _)

end Code

end LatticeKinetics.Fortran
