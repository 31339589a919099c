import LatticeKinetics.Plan.Basic

/-! Compiling a model into a plan. All names of the generated code live in one space in which case
does not count; a plan in which two of them meet is refused. -/

namespace LatticeKinetics

inductive Owner where
  | runtime
  | species (name : String)
  | layer (name : String)
  | site (layer site : String)
  | process (name : String)
  | check
  | update (event : Event)
  | touchup
deriving DecidableEq, Repr

def Owner.render : Owner → String
  | .runtime => "the runtime"
  | .species name => s!"species '{name}'"
  | .layer name => s!"layer '{name}'"
  | .site layerName siteName => s!"site '{layerName}.{siteName}'"
  | .process name => s!"process '{name}'"
  | .check => "a check procedure"
  | .update event => s!"the {event.render} update"
  | .touchup => "a touch-up procedure"

inductive CompileError where
  | model (cause : ModelError)
  | lattice (cause : LatticeError)
  | nameCollision (name : String) (first second : Owner)
deriving DecidableEq, Repr

def CompileError.message : CompileError → String
  | .model cause => cause.message
  | .lattice cause => cause.message
  | .nameCollision name first second =>
    s!"generated procedure name '{name}' is produced by both {first.render} and {second.render}"

namespace Plan

/-- Names that the generated code and its run-time library use themselves. -/
def runtimeNames : List String :=
  ["kind_values", "iint", "base", "lattice", "proclist", "system_size", "set_system_size",
    "to_index", "to_coord", "get_species", "replace_species", "add_proc", "del_proc", "can_do",
    "determine_procsite", "run_proc_nr", "do_kmc_step", "initialize_state", "touchup_site",
    "get_proc_name", "get_species_name", "get_site_name", "nr_of_proc", "nr_of_species",
    "nr_of_layers", "spuck", "lattice_dimension", "default_species"]

def claims (m : Model) (p : Plan) : List (String × Owner) :=
  runtimeNames.map (·, .runtime) ++
    m.species.map (fun s => (s, .species s)) ++
    m.layers.map (fun l => (l.name, .layer l.name)) ++
    p.sites.map (fun s => (s.name, .site s.layer s.site)) ++
    m.processes.map (fun q => (q.name, .process q.name)) ++
    p.checks.map (fun c => (c.name, .check)) ++
    p.updates.map (fun u => (u.name, .update u.event)) ++
    p.touchups.map (fun t => (t.name, .touchup))

/-- The first claim on a name that is taken; `taken` holds the names so far, case folded. -/
def checkClaims : List (String × Owner) → List (String × Owner) → Except CompileError Unit
  | _, [] => .ok ()
  | taken, (name, owner) :: rest =>
    match taken.lookup (Text.foldCase name) with
    | some first => .error (.nameCollision name first owner)
    | none => checkClaims ((Text.foldCase name, owner) :: taken) rest

end Plan

def Model.compile (m : Model) : Except CompileError Plan := do
  let formula ← m.formula.mapError .lattice
  let frames ← m.frames.mapError .model
  let classifications ← (m.classifyWith frames).mapError .model
  let dispatch ← (Frame.dispatches m.defaultSpecies frames).mapError .model
  let plan : Plan := {
    fingerprint := m.fingerprint
    formula
    sites := m.siteConstants
    checks := frames.flatMap (·.checks)
    updates := classifications.map (·.update m.defaultSpecies)
    touchups := m.siteConstants.map (·.touchup frames)
    dispatch }
  Plan.checkClaims [] (plan.claims m)
  pure plan

end LatticeKinetics
