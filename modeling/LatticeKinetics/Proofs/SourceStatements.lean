import LatticeKinetics.Proofs.SourceTokens

/-! The statements of decision trees, read back from their text and carried out. Selections stand in
flat text: a line opens one, lines name its cases, and a line closes it. Carrying them out keeps a
stack of the selections that are open, so that each is closed by its own line. -/

namespace LatticeKinetics.Fortran

open Text

/-! ### Reading -/

def readComponent : List Token → Option (Int × List Token)
  | .sign '-' :: .word text :: .sign ',' :: ts =>
    (readNat? text.toList).map fun n : Nat => (-(n : Int), ts)
  | .word text :: .sign ',' :: ts => (readNat? text.toList).map fun n : Nat => ((n : Int), ts)
  | _ => none

def readSlot : List Token → Option (SlotShift × List Token)
  | .word target :: .sign '-' :: .word origin :: .sign '/' :: .sign ')' :: ts =>
    some (.between target origin, ts)
  | .word "0" :: .sign '/' :: .sign ')' :: ts => some (.same, ts)
  | _ => none

def readSite : List Token → Option (SiteExpr × List Token)
  | .word "site" :: .sign '+' :: .sign '(' :: .sign '/' :: ts => do
    let (x, ts) ← readComponent ts
    let (y, ts) ← readComponent ts
    let (z, ts) ← readComponent ts
    let (slot, ts) ← readSlot ts
    pure (.shifted x y z slot, ts)
  | .word "site" :: ts => some (.here, ts)
  | _ => none

def readArguments : List Token → Option (String × SiteExpr × List Token)
  | .word process :: .sign ',' :: ts =>
    match readSite ts with
    | some (place, .sign ')' :: ts) => some (process, place, ts)
    | _ => none
  | _ => none

/-- A process is removed only under the condition that this very process can be done there. -/
def readStatement : List Token → Option Statement
  | [.word "end", .word "select"] => some .endSelect
  | [.word "case", .sign '(', .word constant, .sign ')'] => some (.case constant)
  | .word "select" :: .word "case" :: .sign '(' :: .word "get_species" :: .sign '(' :: ts =>
    match readSite ts with
    | some (place, [.sign ')', .sign ')']) => some (.selectSpecies place)
    | _ => none
  | .word "call" :: .word "add_proc" :: .sign '(' :: ts =>
    match readArguments ts with
    | some (process, place, []) => some (.addProcess process place)
    | _ => none
  | .word "if" :: .sign '(' :: .word "can_do" :: .sign '(' :: ts =>
    match readArguments ts with
    | some (process, place, .sign ')' :: .word "call" :: .word "del_proc" :: .sign '(' :: ts) =>
      if readArguments ts = some (process, place, []) then some (.removeProcess process place)
      else none
    | _ => none
  | _ => none

theorem readComponent_toString (n : Int) (ts : List Token) :
    readComponent (tokens (toString n) ++ .sign ',' :: ts) = some (n, ts) := by
  rw [tokens_toString_int]
  split
  · rename_i hn
    rw [List.singleton_append, readComponent, readNat?_toString, Option.map_some,
      Int.toNat_of_nonneg hn]
  · rename_i hn
    rw [List.cons_append, List.singleton_append, readComponent, readNat?_toString,
      Option.map_some, Int.toNat_of_nonneg (by omega), Int.neg_neg]

theorem tokens_slot_between {target origin : String} (htarget : isIdentifier target = true)
    (horigin : isIdentifier origin = true) :
    tokens (SlotShift.between target origin).render = [.word target, .sign '-', .word origin] := by
  have htokens : tokens (SlotShift.between target origin).render =
      tokens target ++ .sign '-' :: tokens origin :=
    tokens_append_between rfl rfl rfl target origin
  rw [htokens, tokens_identifier htarget, tokens_identifier horigin]
  rfl

theorem readSlot_render {slot : SlotShift} {x y z : Int}
    (h : ∀ name ∈ (SiteExpr.shifted x y z slot).constants, isIdentifier name = true)
    (ts : List Token) :
    readSlot (tokens slot.render ++ .sign '/' :: .sign ')' :: ts) = some (slot, ts) := by
  cases slot with
  | same => rfl
  | between target origin =>
    rw [tokens_slot_between (h target (by simp [SiteExpr.constants]))
      (h origin (by simp [SiteExpr.constants]))]
    rfl

theorem tokens_shifted {argument : String} (h : isIdentifier argument = true) (x y z : Int)
    (slot : SlotShift) :
    tokens ((SiteExpr.shifted x y z slot).render argument) =
      .word argument :: .sign '+' :: .sign '(' :: .sign '/' ::
        (tokens (toString x) ++ .sign ',' :: (tokens (toString y) ++ .sign ',' ::
          (tokens (toString z) ++ .sign ',' ::
            (tokens slot.render ++ [.sign '/', .sign ')'])))) := by
  change tokens (argument ++ " + (/" ++ toString x ++ ", " ++ toString y ++ ", " ++ toString z ++
    ", " ++ slot.render ++ "/)") = _
  rw [tokens_append_of_opensApart rfl, tokens_append_between (c := ',') rfl rfl rfl,
    tokens_append_between (c := ',') rfl rfl rfl, tokens_append_between (c := ',') rfl rfl rfl,
    tokens_between rfl rfl, tokens_identifier h]
  simp only [List.append_assoc, List.cons_append]
  rfl

theorem readSite_here {ts : List Token} (hts : ts.head? ≠ some (.sign '+')) :
    readSite (.word "site" :: ts) = some (.here, ts) := by
  unfold readSite
  split <;> simp_all

theorem readSite_argument {place : SiteExpr}
    (h : ∀ name ∈ place.constants, isIdentifier name = true) {ts : List Token}
    (hts : ts.head? ≠ some (.sign '+')) :
    readSite (tokens place.argument ++ ts) = some (place, ts) := by
  cases place with
  | here =>
    rw [show tokens SiteExpr.here.argument = [.word "site"] from rfl, List.singleton_append]
    exact readSite_here hts
  | shifted x y z slot =>
    rw [SiteExpr.argument, tokens_shifted rfl]
    simp only [List.cons_append, List.append_assoc, readSite, readComponent_toString,
      readSlot_render h, List.nil_append, Option.bind_eq_bind, Option.bind_some, Option.pure_def]

theorem readArguments_argument {process : String} {place : SiteExpr}
    (hplace : ∀ name ∈ place.constants, isIdentifier name = true) (ts : List Token) :
    readArguments (.word process :: .sign ',' :: (tokens place.argument ++ .sign ')' :: ts)) =
      some (process, place, ts) := by
  rw [readArguments, readSite_argument hplace (by simp)]
  rfl

theorem tokens_call {lead process : String} (hlead : closesApart lead = true)
    (hprocess : isIdentifier process = true) (place : SiteExpr) :
    tokens (lead ++ process ++ ", " ++ place.argument) =
      tokens lead ++ .word process :: .sign ',' :: tokens place.argument := by
  rw [tokens_append_between (c := ',') rfl rfl rfl, tokens_append_of_closesApart hlead,
    tokens_identifier hprocess, List.append_assoc, List.singleton_append]

def Body.statements (body : Body) : List Statement :=
  body.map (·.statement)

@[simp] theorem Body.statements_append (a b : Body) :
    Body.statements (a ++ b) = a.statements ++ b.statements :=
  List.map_append

@[simp] theorem Body.statements_of (statements : List Statement) :
    (Body.of statements).statements = statements := by
  simp [Body.statements, Body.of, Function.comp_def]

@[simp] theorem Body.statements_branch (constant : String) (body : Body) :
    (Body.branch constant body).statements = .case constant :: body.statements := by
  simp [Body.branch, Body.statements, Body.of, Body.indent, Function.comp_def]

namespace Statement

def Readable (statement : Statement) : Prop :=
  readStatement (tokens statement.render) = some statement

theorem readable_endSelect : endSelect.Readable :=
  rfl

theorem readable_case {constant : String} (h : isIdentifier constant = true) :
    (case constant).Readable := by
  have htokens : tokens (case constant).render =
      [.word "case", .sign '(', .word constant, .sign ')'] := by
    change tokens ("case(" ++ constant ++ ")") = _
    rw [tokens_append_of_opensApart rfl, tokens_append_of_closesApart rfl, tokens_identifier h]
    rfl
  unfold Readable
  rw [htokens]
  rfl

theorem readable_selectSpecies {place : SiteExpr}
    (h : ∀ name ∈ place.constants, isIdentifier name = true) :
    (selectSpecies place).Readable := by
  have htokens : tokens (selectSpecies place).render =
      .word "select" :: .word "case" :: .sign '(' :: .word "get_species" :: .sign '(' ::
        (tokens place.argument ++ [.sign ')', .sign ')']) := by
    change tokens ("select case(get_species(" ++ place.argument ++ "))") = _
    rw [tokens_append_of_opensApart rfl, tokens_append_of_closesApart rfl, List.append_assoc]
    rfl
  unfold Readable
  rw [htokens, readStatement, readSite_argument h (by simp)]
  rfl

section Processes

variable {process : String} {place : SiteExpr}

theorem readable_addProcess (hprocess : isIdentifier process = true)
    (hplace : ∀ name ∈ place.constants, isIdentifier name = true) :
    (addProcess process place).Readable := by
  have htokens : tokens (addProcess process place).render =
      .word "call" :: .word "add_proc" :: .sign '(' :: .word process :: .sign ',' ::
        (tokens place.argument ++ [.sign ')']) := by
    change tokens ("call add_proc(" ++ process ++ ", " ++ place.argument ++ ")") = _
    rw [tokens_append_of_opensApart rfl, tokens_call rfl hprocess, List.append_assoc]
    rfl
  unfold Readable
  rw [htokens, readStatement, readArguments_argument hplace]

theorem readable_removeProcess (hprocess : isIdentifier process = true)
    (hplace : ∀ name ∈ place.constants, isIdentifier name = true) :
    (removeProcess process place).Readable := by
  have htokens : tokens (removeProcess process place).render =
      .word "if" :: .sign '(' :: .word "can_do" :: .sign '(' :: .word process :: .sign ',' ::
        (tokens place.argument ++ .sign ')' :: .sign ')' :: .word "call" :: .word "del_proc" ::
          .sign '(' :: .word process :: .sign ',' :: (tokens place.argument ++ [.sign ')'])) := by
    change tokens ("if(can_do(" ++ process ++ ", " ++ place.argument ++ ")) call del_proc(" ++
      process ++ ", " ++ place.argument ++ ")") = _
    rw [tokens_append_of_opensApart rfl, tokens_call (closesApart_append _ rfl) hprocess,
      tokens_append_of_opensApart rfl, tokens_call rfl hprocess]
    simp only [List.append_assoc, List.cons_append]
    rfl
  unfold Readable
  rw [htokens, readStatement, readArguments_argument hplace]
  exact if_pos (readArguments_argument hplace [])

end Processes

end Statement

/-! ### Carrying out -/

/-- The value of an array that stands for a site: its cell, and the index of its site type. -/
structure SiteVector where
  cell : Cell
  slot : Int
deriving DecidableEq, Repr

inductive Act where
  | add (process : Int) (place : SiteVector)
  | remove (process : Int) (place : SiteVector)
deriving DecidableEq, Repr

/-- What a procedure sees: the constants, what the sites hold, and the site it is called with. -/
structure World where
  constant? : String → Option Int
  held : SiteVector → Int
  site : SiteVector

def World.slotShift? (w : World) : SlotShift → Option Int
  | .same => some 0
  | .between target origin => do
    let t ← w.constant? target
    let o ← w.constant? origin
    pure (t - o)

def World.place? (w : World) : SiteExpr → Option SiteVector
  | .here => some w.site
  | .shifted x y z slot =>
    (w.slotShift? slot).map fun shift => ⟨w.site.cell.shift [x, y, z], w.site.slot + shift⟩

def World.act? (w : World) : Statement → Option Act
  | .addProcess process place => do
    let number ← w.constant? process
    let there ← w.place? place
    pure (.add number there)
  | .removeProcess process place => do
    let number ← w.constant? process
    let there ← w.place? place
    pure (.remove number there)
  | _ => none

structure Selection where
  /-- What was found, unless the selection stands among lines that are passed over. -/
  found : Option Int
  labels : List Int
  /-- Whether the lines of the present case are carried out; none before the first case. -/
  running : Option Bool
deriving DecidableEq, Repr

/-- Whether lines are carried out here. No call may stand between a selection and its first case. -/
def running? : List Selection → Option Bool
  | [] => some true
  | top :: _ => top.running

/-- Carry out statements within open selections. There is no result when a case or the end of a
selection stands outside of one, a selection is left open, or a label is used again. -/
def World.perform (w : World) : List Selection → List Statement → Option (List Act)
  | [], [] => some []
  | _ :: _, [] => none
  | stack, .selectSpecies place :: rest => do
    let running ← running? stack
    let there ← w.place? place
    w.perform (⟨if running then some (w.held there) else none, [], none⟩ :: stack) rest
  | top :: stack, .case constant :: rest => do
    let label ← w.constant? constant
    if label ∈ top.labels then none
    else
      let running := top.found == some label
      w.perform (⟨top.found, label :: top.labels, some running⟩ :: stack) rest
  | _ :: stack, .endSelect :: rest => w.perform stack rest
  | stack, statement :: rest => do
    let running ← running? stack
    let act ← w.act? statement
    let acts ← w.perform stack rest
    pure (if running then act :: acts else acts)

def World.execute (w : World) (lines : List String) : Option (List Act) := do
  let statements ← lines.mapM fun line => readStatement (tokens line)
  w.perform [] statements

theorem World.execute_lines {body : Body} (h : ∀ s ∈ body.statements, s.Readable) (w : World) :
    w.execute body.lines = w.perform [] body.statements := by
  have hread : body.lines.mapM (fun line => readStatement (tokens line)) =
      some body.statements := by
    unfold Body.lines Body.statements at *
    induction body with
    | nil => rfl
    | cons n body ih =>
      rw [List.map_cons, List.forall_mem_cons] at h
      have hn : readStatement (tokens n.statement.render) = some n.statement := h.1
      rw [List.map_cons, List.mapM_cons, hn, ih h.2]
      rfl
  rw [execute, hread]
  rfl

section Perform

variable {w : World} {stack : List Selection} {running : Bool} {rest : List Statement}

theorem World.perform_act (hrunning : running? stack = some running) {statement : Statement}
    {act : Act} (hact : w.act? statement = some act) :
    w.perform stack (statement :: rest) =
      (w.perform stack rest).map ((if running then [act] else []) ++ ·) := by
  cases statement <;> try contradiction
  all_goals
    simp only [perform, hrunning, hact]
    cases running <;> cases w.perform stack rest <;> rfl

theorem World.perform_select (hrunning : running? stack = some running) {place : SiteExpr}
    {there : SiteVector} (hplace : w.place? place = some there) :
    w.perform stack (.selectSpecies place :: rest) =
      w.perform (⟨if running then some (w.held there) else none, [], none⟩ :: stack) rest := by
  simp [perform, hrunning, hplace]

theorem World.perform_case {top : Selection} {constant : String} {label : Int}
    (hlabel : w.constant? constant = some label) (hfresh : label ∉ top.labels) :
    w.perform (top :: stack) (.case constant :: rest) =
      w.perform (⟨top.found, label :: top.labels, some (top.found == some label)⟩ :: stack)
        rest := by
  simp [perform, hlabel, hfresh]

end Perform

end LatticeKinetics.Fortran
