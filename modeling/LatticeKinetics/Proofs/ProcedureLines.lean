import LatticeKinetics.Fortran.ProcessModule
import LatticeKinetics.Proofs.StatementWords
import LatticeKinetics.Proofs.TreeShape

/-! The lines of generated procedures. A procedure stands one level inside its module and its
statements two; each query of a decision tree puts what depends on it one level further in. Where
the statements at these levels fit, the procedure does. -/

namespace LatticeKinetics.Fortran

open Text

/-! ### Fixed texts -/

theorem byteLength_toList (text : String) : byteLength text.toList = text.utf8ByteSize := by
  have hchars (cs : List Char) : byteLength cs = (String.ofList cs).utf8ByteSize := by
    induction cs with
    | nil => rfl
    | cons c cs ih =>
      rw [byteLength_cons, ih, String.ofList_cons, String.utf8ByteSize_append,
        String.utf8ByteSize_singleton]
  rw [hchars, String.ofList_toList]

/-- The text has room on every level that all procedures share, on one line or in short words. -/
def IsShort (text : String) : Prop :=
  text.utf8ByteSize ≤ 74 ∨ Spaced 64 text.toList

instance (text : String) : Decidable (IsShort text) :=
  inferInstanceAs (Decidable (_ ∨ _))

def Content.Short : Content → Prop
  | .statement text => IsShort text
  | _ => True

instance (content : Content) : Decidable content.Short :=
  match content with
  | .statement text => inferInstanceAs (Decidable (IsShort text))
  | .comment _ => isTrue trivial
  | .blank => isTrue trivial

section Fixed

variable {width level : Nat}

theorem fits_of_short {text : String} (h : IsShort text) (hwidth : width ≤ 8)
    (hlevel : level ≤ 3) : (Content.statement text).Fits width level := by
  rcases h with h | h
  · have hle : width * level ≤ 8 * 3 := Nat.mul_le_mul hwidth hlevel
    apply fits_of_line
    rw [byteLength_toList]
    omega
  · have hle : width * (level + 1) ≤ 8 * 4 := Nat.mul_le_mul hwidth (by omega)
    exact fits_of_words (h.mono (by omega))

theorem Code.fits_of_short {code : Code} {base : Nat}
    (h : ∀ line ∈ code, base + line.level ≤ 3 ∧ line.content.Short) (hwidth : width ≤ 8) :
    code.Fits width base := by
  intro line hline
  obtain ⟨hlevel, hshort⟩ := h line hline
  obtain ⟨level, content⟩ := line
  cases content with
  | statement text => exact Fortran.fits_of_short hshort hwidth hlevel
  | comment text => trivial
  | blank => trivial

theorem fits_of_spaced_le {text : String} {deepest : Nat}
    (h : Spaced (96 - width * (deepest + 1)) text.toList) (hle : level ≤ deepest) :
    (Content.statement text).Fits width level := by
  have : width * (level + 1) ≤ width * (deepest + 1) := Nat.mul_le_mul_left width (by omega)
  exact fits_of_words (h.mono (by omega))

end Fixed

/-! ### Bodies -/

namespace Body

variable {width base : Nat}

@[simp] theorem code_append (body more : Body) : code (body ++ more) = code body ++ code more :=
  List.map_append

@[simp] theorem code_of (statements : List Statement) :
    (of statements).code = Code.statements (statements.map (·.render)) := by
  simp [code, of, Code.statements]

@[simp] theorem code_indent (body : Body) : body.indent.code = body.code.indent := by
  simp [code, indent, Code.indent]

theorem code_flatMap {α : Type} (as : List α) (f : α → Body) :
    code (as.flatMap f) = as.flatMap fun a => (f a).code :=
  List.map_flatMap

theorem fits_of {statements : List Statement} :
    (of statements).code.Fits width base ↔
      ∀ s ∈ statements, (Content.statement s.render).Fits width base := by
  simp

theorem fits_branch {constant : String} {body : Body} :
    (branch constant body).code.Fits width base ↔
      (Content.statement (Statement.case constant).render).Fits width base ∧
        body.code.Fits width (base + 1) := by
  simp [branch]

theorem fits_selection {selector : String} {cases : Body} :
    (ProcessModule.selection selector cases).code.Fits width base ↔
      ((Content.statement (Statement.select selector).render).Fits width base ∧
        cases.code.Fits width base) ∧
        (Content.statement Statement.endSelect.render).Fits width base := by
  simp [ProcessModule.selection, and_assoc]

end Body

namespace ProcessModule

section Trees

variable {width inner : Nat} {names : Nat → String} {origin : String}

mutual

/-- Queries stand at most `inner` levels deep, and what is fired at most one level deeper. -/
theorem fits_treeBody (t : Tree Effect) (base : Nat) (hdepth : base + t.depth ≤ inner + 1)
    (heffects : ∀ e ∈ t.payloads, ∀ level ≤ inner + 1,
      (Content.statement (effect names origin e).render).Fits width level)
    (hqueries : ∀ c ∈ t.queries, ∀ level ≤ inner,
      (Content.statement (Statement.selectSpecies (.ofCoordinate c origin)).render).Fits
        width level)
    (hcases : ∀ s ∈ t.caseSpecies, ∀ level ≤ inner,
      (Content.statement (Statement.case s).render).Fits width level)
    (hend : ∀ level ≤ inner, (Content.statement Statement.endSelect.render).Fits width level) :
    (treeBody names origin t).code.Fits width base := by
  match t with
  | .done => simp [treeBody, Body.code, Code.Fits]
  | .fire payload rest =>
    obtain ⟨heffect, heffects⟩ := List.forall_mem_cons.1 heffects
    unfold Tree.depth at hdepth
    have hrest := fits_treeBody rest base hdepth heffects hqueries hcases hend
    unfold treeBody
    rw [Body.code_append, Code.fits_append, Body.fits_of, List.forall_mem_singleton]
    exact ⟨heffect base (by omega), hrest⟩
  | .query coord arms rest =>
    obtain ⟨hquery, hqueries⟩ := List.forall_mem_cons.1 hqueries
    obtain ⟨heffectsArms, heffectsRest⟩ := List.forall_mem_append.1 heffects
    obtain ⟨hqueriesArms, hqueriesRest⟩ := List.forall_mem_append.1 hqueries
    obtain ⟨hcasesArms, hcasesRest⟩ := List.forall_mem_append.1 hcases
    unfold Tree.depth at hdepth
    have harms := fits_armBody arms base (by omega) heffectsArms hqueriesArms hcasesArms hend
    have hrest := fits_treeBody rest base (by omega) heffectsRest hqueriesRest hcasesRest hend
    unfold treeBody
    rw [Body.code_append, Body.code_append, Body.code_append, Code.fits_append, Code.fits_append,
      Code.fits_append, Body.fits_of, Body.fits_of, List.forall_mem_singleton,
      List.forall_mem_singleton]
    exact ⟨⟨⟨hquery base (by omega), harms⟩, hend base (by omega)⟩, hrest⟩

theorem fits_armBody (arms : Arms Effect) (base : Nat) (hdepth : base + arms.depth ≤ inner)
    (heffects : ∀ e ∈ arms.payloads, ∀ level ≤ inner + 1,
      (Content.statement (effect names origin e).render).Fits width level)
    (hqueries : ∀ c ∈ arms.queries, ∀ level ≤ inner,
      (Content.statement (Statement.selectSpecies (.ofCoordinate c origin)).render).Fits
        width level)
    (hcases : ∀ s ∈ arms.caseSpecies, ∀ level ≤ inner,
      (Content.statement (Statement.case s).render).Fits width level)
    (hend : ∀ level ≤ inner, (Content.statement Statement.endSelect.render).Fits width level) :
    (armBody names origin arms).code.Fits width base := by
  match arms with
  | .none => simp [armBody, Body.code, Code.Fits]
  | .case species body others =>
    obtain ⟨heffectsBody, heffectsOthers⟩ := List.forall_mem_append.1 heffects
    obtain ⟨hqueriesBody, hqueriesOthers⟩ := List.forall_mem_append.1 hqueries
    obtain ⟨hcase, hcases⟩ := List.forall_mem_cons.1 hcases
    obtain ⟨hcasesBody, hcasesOthers⟩ := List.forall_mem_append.1 hcases
    unfold Arms.depth at hdepth
    have hbody := fits_treeBody body (base + 1) (by omega) heffectsBody hqueriesBody hcasesBody hend
    have hothers := fits_armBody others base (by omega) heffectsOthers hqueriesOthers hcasesOthers
      hend
    unfold armBody
    rw [Body.code_append, Code.fits_append, Body.fits_branch]
    exact ⟨⟨hcase base (by omega), hbody⟩, hothers⟩

end

theorem spaced_effect {size : Nat} {e : Effect}
    (hname : IsWord (size - 11) (names e.process).toList)
    (hplace : Placed size (.ofCoordinate e.location origin)) (hsize : 16 ≤ size) :
    Spaced size (effect names origin e).render.toList := by
  cases e with
  | enable process location => exact Statement.spaced_addProcess hname hplace hsize
  | disable process location => exact Statement.spaced_removeProcess hname hplace hsize

end Trees

section Procedures

variable {width : Nat}

theorem fits_procedure {q : Procedure} :
    q.code.Fits width 1 ↔ ((Content.statement q.opening).Fits width 1 ∧
      (∀ d ∈ q.declarations, (Content.statement d.render).Fits width 2) ∧
        q.body.code.Fits width 2) ∧ (Content.statement q.closing).Fits width 1 := by
  rw [Procedure.code, Code.fits_block, Code.fits_append, Code.fits_statements,
    List.forall_mem_map]

theorem fits_siteProcedure {kind : ProcedureKind} {modifier name : String} {body : Body}
    (hwidth : width ≤ 8) (hmodifier : byteLength modifier.toList ≤ 8)
    (hname : byteLength name.toList ≤ 63) (hbody : body.code.Fits width 2) :
    (siteProcedure kind modifier name body).code.Fits width 1 := by
  have hkind : byteLength kind.render.toList ≤ 10 := by cases kind <;> decide
  rw [fits_procedure]
  refine ⟨⟨?_, ?_, hbody⟩, ?_⟩
  · have htext : (siteProcedure kind modifier name body).opening =
        modifier ++ kind.render ++ " " ++ name ++ "(" ++ "site" ++ ")" := rfl
    apply fits_of_line
    rw [htext]
    simp only [String.toList_append, byteLength_append]
    change width * 1 + (_ + _ + 1 + _ + 1 + 4 + 1) ≤ 98
    omega
  · intro d hd
    rw [List.mem_singleton.1 hd]
    exact fits_of_short (by decide) hwidth (by decide)
  · have htext : (siteProcedure kind modifier name body).closing =
        "end " ++ kind.render ++ " " ++ name := rfl
    apply fits_of_line
    rw [htext]
    simp only [String.toList_append, byteLength_append]
    change width * 1 + (4 + _ + 1 + _) ≤ 98
    omega

theorem toList_quote {name : String} (h : isIdentifier name = true) :
    (quote name).toList = '"' :: (name.toList ++ ['"']) := by
  have hsingle : ∀ c ∈ name.toList, (if c = '"' then ['"', '"'] else [c]) = [c] := by
    intro c hc
    apply if_neg
    rintro rfl
    exact absurd (isNameChar_of_isIdentifier h hc) (by decide)
  unfold quote
  rw [String.toList_append, String.toList_append, String.toList_ofList,
    List.flatMap_congr hsingle]
  simp

theorem foldl_max_le {as : List Nat} {first bound : Nat} (hfirst : first ≤ bound)
    (h : ∀ a ∈ as, a ≤ bound) : as.foldl max first ≤ bound := by
  induction as generalizing first with
  | nil => exact hfirst
  | cons a as ih =>
    obtain ⟨ha, has⟩ := List.forall_mem_cons.1 h
    exact ih (Nat.max_le.2 ⟨hfirst, ha⟩) has

theorem spaced_character {n : Nat} (h : n ≤ 63) :
    Spaced 64 (Declaration.render ⟨s!"character(len={n})", ["name"]⟩).toList := by
  have hlength := (isWord_toString (by decide) (show n < 10 ^ 2 by omega)).around
    "character(len=".toList ")".toList (by decide) (by decide) (show _ ≤ 64 by decide)
  have hname : IsWord 64 "name".toList := by decide
  have hcolons : IsWord 64 "::".toList := by decide
  have hparts : (Declaration.render ⟨s!"character(len={n})", ["name"]⟩).toList =
      "character(len=".toList ++ ((toString n).toList ++ ")".toList) ++
        ' ' :: ("::".toList ++ ' ' :: "name".toList) := by
    have htext : Declaration.render ⟨s!"character(len={n})", ["name"]⟩ =
        "character(len=" ++ toString n ++ ")" ++ " :: " ++ "name" := rfl
    rw [htext]
    simp
  rw [hparts]
  exact spaced_cons hlength (spaced_cons hcolons (spaced_word hname))

theorem fits_entry {entry : String} (hwidth : width ≤ 8) (h : isIdentifier entry = true)
    (hshort : byteLength entry.toList ≤ 63) :
    (Body.branch entry (Body.of [.plain s!"name = {quote entry}"])).code.Fits width 2 := by
  have htext : (Statement.plain s!"name = {quote entry}").render = "name = " ++ quote entry := rfl
  rw [Body.fits_branch, Body.fits_of, List.forall_mem_singleton]
  constructor
  · apply Statement.fits_case
    omega
  · apply fits_of_line
    rw [htext, String.toList_append, toList_quote h, byteLength_append, byteLength_cons,
      byteLength_append]
    change width * 3 + (7 + (1 + (_ + 1))) ≤ 98
    omega

theorem fits_nameTable {function argument : String} {entries : List String} (hwidth : width ≤ 8)
    (hopening : IsShort (nameTable function argument []).opening)
    (hclosing : IsShort (nameTable function argument []).closing)
    (hargument : IsShort (Declaration.integerArgument [argument]).render)
    (hselect : IsShort (Statement.select argument).render)
    (hentries : ∀ entry ∈ entries, isIdentifier entry = true ∧ byteLength entry.toList ≤ 63) :
    (nameTable function argument entries).code.Fits width 1 := by
  have hlongest : (entries.map fun entry => byteLength entry.toList).foldl max 1 ≤ 63 := by
    apply foldl_max_le (by decide)
    rw [List.forall_mem_map]
    exact fun entry hentry => (hentries entry hentry).2
  have hends : (nameTable function argument entries).opening =
      (nameTable function argument []).opening ∧ (nameTable function argument entries).closing =
        (nameTable function argument []).closing := ⟨rfl, rfl⟩
  rw [fits_procedure, hends.1, hends.2]
  refine ⟨⟨fits_of_short hopening hwidth (by decide), ?_, ?_⟩,
    fits_of_short hclosing hwidth (by decide)⟩
  · intro d hd
    rcases List.mem_pair.1 hd with rfl | rfl
    · exact fits_of_short hargument hwidth (by decide)
    · exact fits_of_short (.inr (spaced_character hlongest)) hwidth (by decide)
  · unfold nameTable
    rw [Body.fits_selection, Body.code_append, Body.code_append, Body.code_flatMap,
      Code.fits_append, Code.fits_append, Code.fits_flatMap]
    refine ⟨⟨fits_of_short hselect hwidth (by decide), ⟨?_, ?_⟩, ?_⟩,
      fits_of_short (by decide) hwidth (by decide)⟩
    · intro entry hentry
      exact fits_entry hwidth (hentries entry hentry).1 (hentries entry hentry).2
    · exact Code.fits_of_short (by decide) hwidth
    · exact Code.fits_of_short (by decide) hwidth

theorem fits_check {c : Check} (hwidth : width ≤ 8) (hname : byteLength c.name.toList ≤ 63)
    (hne : c.conditions ≠ [])
    (h : ∀ q ∈ c.conditions, IsWord 64 q.species.toList ∧ Placed 64
      (.ofCoordinate q.coord (Model.siteConstant c.origin.layer c.origin.site))) :
    (check c).code.Fits width 1 := by
  unfold check
  apply fits_siteProcedure hwidth (by decide) hname
  rw [Body.fits_of, List.forall_mem_singleton]
  apply Statement.fits_verdict (by omega) (by simpa using hne)
  · rw [List.forall_mem_map]
    intro q hq
    exact ⟨(h q hq).2.mono (by omega), (h q hq).1.mono (by omega)⟩
  · omega

theorem fits_update {names : Nat → String} {u : Update} (hwidth : width ≤ 8)
    (hname : byteLength u.name.toList ≤ 63) (hbefore : IsWord 64 u.before.toList)
    (hafter : IsWord 64 u.after.toList)
    (htree : (treeBody names (Model.siteConstant u.event.layer u.event.site) u.tree).code.Fits
      width 2) :
    (update names u).code.Fits width 1 := by
  unfold update
  apply fits_siteProcedure hwidth (by decide) hname
  rw [Body.code_append, Code.fits_append, Body.fits_of, List.forall_mem_singleton]
  refine ⟨?_, htree⟩
  apply fits_of_words
  apply Statement.spaced_replaceSpecies (hbefore.mono (by omega)) (hafter.mono (by omega))
  omega

theorem fits_touchup {names : Nat → String} {t : Touchup} (hwidth : width ≤ 8)
    (hname : byteLength t.name.toList ≤ 63)
    (hremovals : ∀ n ∈ t.removals, IsWord 58 (names n).toList)
    (htree : (treeBody names (Model.siteConstant t.layer t.site) t.tree).code.Fits width 2) :
    (touchup names t).code.Fits width 1 := by
  unfold touchup
  apply fits_siteProcedure hwidth (by decide) hname
  rw [Body.code_append, Code.fits_append, Body.fits_of, List.forall_mem_map]
  refine ⟨?_, htree⟩
  intro n hn
  apply fits_of_words
  apply Statement.spaced_removeProcess ((hremovals n hn).mono (by omega)) (placed_here _)
  omega

theorem fits_touchupSite {touchups : List Touchup} (hwidth : width ≤ 8)
    (h : ∀ t ∈ touchups, byteLength (Model.siteConstant t.layer t.site).toList ≤ 63 ∧
      byteLength t.name.toList ≤ 63) :
    (touchupSite touchups).code.Fits width 1 := by
  unfold touchupSite
  apply fits_siteProcedure hwidth (by decide) (by decide)
  rw [Body.fits_selection, Body.code_flatMap, Code.fits_flatMap]
  refine ⟨⟨fits_of_short (by decide) hwidth (by decide), ?_⟩,
    fits_of_short (by decide) hwidth (by decide)⟩
  intro t ht
  obtain ⟨hconstant, hname⟩ := h t ht
  rw [Body.fits_branch, Body.fits_of, List.forall_mem_singleton]
  refine ⟨Statement.fits_case (by omega), ?_⟩
  apply Statement.fits_call (by omega) (placed_here _)
  omega

theorem fits_runProcess {dispatch : List Dispatch} (hwidth : width ≤ 8)
    (h : ∀ d ∈ dispatch, byteLength d.name.toList ≤ 63 ∧ ∀ s ∈ d.steps,
      byteLength s.procedure.toList ≤ 63 ∧ Placed 64
        (.ofCoordinate s.coord (Model.siteConstant d.anchor.layer d.anchor.site))) :
    (runProcess dispatch).code.Fits width 1 := by
  have hends : (runProcess dispatch).opening = (runProcess []).opening ∧
      (runProcess dispatch).closing = (runProcess []).closing := ⟨rfl, rfl⟩
  rw [fits_procedure, hends.1, hends.2]
  refine ⟨⟨fits_of_short (by decide) hwidth (by decide), ?_, ?_⟩,
    fits_of_short (by decide) hwidth (by decide)⟩
  · intro d hd
    rcases List.mem_pair.1 hd with rfl | rfl
    · exact fits_of_short (by decide) hwidth (by decide)
    · exact fits_of_short (by decide) hwidth (by decide)
  · unfold runProcess
    rw [Body.code_append, Code.fits_append, Body.fits_of, List.forall_mem_singleton,
      Body.fits_selection, Body.code_flatMap, Code.fits_flatMap]
    refine ⟨fits_of_short (by decide) hwidth (by decide),
      ⟨fits_of_short (by decide) hwidth (by decide), ?_⟩,
      fits_of_short (by decide) hwidth (by decide)⟩
    intro d hd
    obtain ⟨hname, hsteps⟩ := h d hd
    unfold dispatchCase
    rw [Body.fits_branch, Body.fits_of, List.forall_mem_map]
    refine ⟨Statement.fits_case (by omega), ?_⟩
    intro s hs
    obtain ⟨hprocedure, hplace⟩ := hsteps s hs
    apply Statement.fits_call (by omega) (hplace.mono (by omega))
    omega

theorem fits_step (hwidth : width ≤ 8) : step.code.Fits width 1 :=
  Code.fits_of_short (by decide) hwidth

theorem fits_resetState (hwidth : width ≤ 8) : resetState.code.Fits width 1 :=
  Code.fits_of_short (by decide) hwidth

end Procedures

end ProcessModule

namespace LatticeModule

theorem fits_numbering {f : Formula} (hdimension : 1 ≤ f.dimension ∧ f.dimension ≤ 3) {width : Nat}
    (hwidth : width ≤ 8) : ∀ q ∈ [toIndex f, toCoord f], q.code.Fits width 1 := by
  -- The text depends on the number of axes only, so three cases are all there are.
  have hshort : ∀ axes ∈ [1, 2, 3], ∀ q ∈ [toIndex ⟨axes, 0⟩, toCoord ⟨axes, 0⟩],
      ∀ line ∈ q.code, 1 + line.level ≤ 3 ∧ line.content.Short := by
    decide +kernel
  have hsame : [toIndex f, toCoord f] = [toIndex ⟨f.dimension, 0⟩, toCoord ⟨f.dimension, 0⟩] := rfl
  have hmem : f.dimension ∈ [1, 2, 3] := by
    simp only [List.mem_cons, List.not_mem_nil, or_false]
    omega
  rw [hsame]
  exact fun q hq => Code.fits_of_short (hshort _ hmem q hq) hwidth

theorem fits_procedures {f : Formula} (hdimension : 1 ≤ f.dimension ∧ f.dimension ≤ 3)
    {width : Nat} (hwidth : width ≤ 8) : ∀ q ∈ procedures f, q.code.Fits width 1 := by
  have hshort : ∀ q ∈ [setSystemSize, getSpecies, replaceSpecies, listProcedure "add_proc",
      listProcedure "del_proc", canDo], ∀ line ∈ q.code,
        1 + line.level ≤ 3 ∧ line.content.Short := by
    decide +kernel
  have hother := fits_numbering hdimension hwidth
  have hfixed := fun q hq => Code.fits_of_short (hshort q hq) hwidth
  simp only [List.forall_mem_cons] at hfixed hother
  unfold procedures
  simp only [List.forall_mem_cons]
  exact ⟨hfixed.1, hother.1, hother.2.1, hfixed.2⟩

end LatticeModule

/-! ### Modules -/

theorem fits_parameters {ps : List Parameter} {width : Nat} (hwidth : width ≤ 8)
    (h : ∀ p ∈ ps, IsWord 64 p.name.toList ∧ IsWord 64 p.value.toList) :
    (LatticeModule.parameters ps).Fits width 1 := by
  unfold LatticeModule.parameters
  rw [Code.fits_statements, List.forall_mem_map]
  intro p hp
  obtain ⟨hname, hvalue⟩ := h p hp
  exact fits_of_short (.inr (spaced_parameter hname hvalue (by decide))) hwidth (by decide)

theorem SourceModule.fits_code {s : SourceModule} {name : String} {width : Nat}
    (hwidth : width ≤ 8) (hname : s.name = name) (hopening : IsShort s!"module {name}")
    (hclosing : IsShort s!"end module {name}") (himports : ∀ text ∈ s.imports, IsShort text)
    (hdeclarations : s.declarations.Fits width 1)
    (hprocedures : ∀ q ∈ s.procedures, q.code.Fits width 1) : s.code.Fits width 0 := by
  have hheader : s.header.Fits width 0 := by simp [header]
  unfold code
  rw [hname, Code.fits_append, Code.fits_block, Code.fits_append, Code.fits_append,
    Code.fits_append, Code.fits_append, Code.fits_append, Code.fits_flatMap, Code.fits_statements,
    List.forall_mem_append, List.forall_mem_singleton, Code.fits_statement]
  refine ⟨hheader, ⟨fits_of_short hopening hwidth (by decide),
    ⟨⟨⟨⟨?_, Code.fits_blank⟩, hdeclarations⟩, Code.fits_blank⟩, ?_⟩, ?_⟩,
    fits_of_short hclosing hwidth (by decide)⟩
  · exact ⟨fun text htext => fits_of_short (himports text htext) hwidth (by decide),
      fits_of_short (by decide) hwidth (by decide)⟩
  · exact fits_of_short (by decide) hwidth (by decide)
  · exact fun q hq => Code.fits_append.2 ⟨Code.fits_blank, hprocedures q hq⟩

end LatticeKinetics.Fortran
