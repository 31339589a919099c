import LatticeKinetics.Fortran.LatticeModule

/-! The generated process module: constants, the check, update and touch-up procedures of a plan,
the dispatch, and the names of everything. -/

namespace LatticeKinetics.Fortran

namespace ProcessModule

open Text

def imports : List String :=
  ["use kind_values", "use base, only: determine_procsite", "use lattice"]

/-- A comment is one line, whatever the rate constant says. -/
def rateComment (p : Process) : String :=
  let rate := p.rateConstant.toList.map fun c => if c = '\n' then ' ' else c
  s!"{p.name}: {String.ofList rate}"

def processConstant (numbered : Nat × Process) : Code :=
  Code.comment (rateComment numbered.2) ++
    LatticeModule.parameters [⟨numbered.2.name, toString numbered.1⟩]

def declarations (m : Model) : Code :=
  LatticeModule.parameters [
      ⟨"nr_of_species", toString m.species.length⟩,
      ⟨"nr_of_proc", toString m.processes.length⟩] ++
    Code.blank ++
    Code.comment "species" ++
    LatticeModule.parameters (m.species.zipIdx.map fun (name, i) => ⟨name, toString i⟩) ++
    LatticeModule.parameters [⟨"default_species", m.defaultSpecies⟩] ++
    Code.blank ++
    Code.comment "processes and their rate constants" ++
    m.numberedProcesses.flatMap processConstant

def nameOf (m : Model) (process : Nat) : String :=
  ((m.process? process).map (·.name)).getD ""

def effect (names : Nat → String) (origin : String) : Effect → Statement
  | .enable process location =>
    .addProcess (names process) (.ofCoordinate location origin)
  | .disable process location =>
    .removeProcess (names process) (.ofCoordinate location origin)

mutual

/-- The statements of a decision tree, where `origin` is the constant of the site at hand. -/
def treeBody (names : Nat → String) (origin : String) : Tree Effect → Body
  | .done => []
  | .fire payload rest =>
    Body.of [effect names origin payload] ++ treeBody names origin rest
  | .query coord arms rest =>
    Body.of [.selectSpecies (.ofCoordinate coord origin)] ++ armBody names origin arms ++
      Body.of [.endSelect] ++ treeBody names origin rest

def armBody (names : Nat → String) (origin : String) : Arms Effect → Body
  | .none => []
  | .case species body others =>
    Body.branch species (treeBody names origin body) ++ armBody names origin others

end

def siteProcedure (kind : ProcedureKind) (modifier name : String) (body : Body) : Procedure :=
  { kind, modifier, name
    arguments := ["site"]
    declarations := [.siteArgument]
    body }

def check (c : Check) : Procedure :=
  let origin := Model.siteConstant c.origin.layer c.origin.site
  siteProcedure .function "logical " c.name
    (Body.of [.verdict c.name
      (c.conditions.map fun p => (.ofCoordinate p.coord origin, p.species))])

def update (names : Nat → String) (u : Update) : Procedure :=
  siteProcedure .subroutine "" u.name
    (Body.of [.replaceSpecies u.before u.after] ++
      treeBody names (Model.siteConstant u.event.layer u.event.site) u.tree)

def touchup (names : Nat → String) (t : Touchup) : Procedure :=
  siteProcedure .subroutine "" t.name
    (Body.of (t.removals.map fun process => .removeProcess (names process) .here) ++
      treeBody names (Model.siteConstant t.layer t.site) t.tree)

def selection (selector : String) (cases : Body) : Body :=
  Body.of [.select selector] ++ cases ++ Body.of [.endSelect]

def touchupSite (touchups : List Touchup) : Procedure :=
  siteProcedure .subroutine "" "touchup_site"
    (selection "site(4)" (touchups.flatMap fun t =>
      Body.branch (Model.siteConstant t.layer t.site) (Body.of [.call t.name .here])))

def dispatchCase (d : Dispatch) : Body :=
  let origin := Model.siteConstant d.anchor.layer d.anchor.site
  Body.branch d.name
    (Body.of (d.steps.map fun s => .call s.procedure (.ofCoordinate s.coord origin)))

def runProcess (dispatch : List Dispatch) : Procedure :=
  { kind := .subroutine
    name := "run_proc_nr"
    arguments := ["proc", "nr_site"]
    declarations := [.integerArgument ["proc", "nr_site"], .siteVector "site"]
    body := Body.of [.plain "site = to_coord(nr_site)"] ++
      selection "proc" (dispatch.flatMap dispatchCase) }

def step : Procedure :=
  { kind := .subroutine
    name := "do_kmc_step"
    arguments := []
    declarations := [.integer ["proc_nr", "nr_site"]]
    body := Body.of [
      .plain "call determine_procsite(proc_nr, nr_site)",
      .plain "call run_proc_nr(proc_nr, nr_site)"] }

def everySite (statements : List Statement) : Body :=
  Body.of [.plain "do n = 1, spuck*product(system_size)"] ++ (Body.of statements).indent ++
    Body.of [.plain "end do"]

def resetState : Procedure :=
  { kind := .subroutine
    name := "initialize_state"
    arguments := []
    declarations := [.integer ["n"], .siteVector "site"]
    body := everySite [
        .plain "site = to_coord(n)",
        .plain "call replace_species(site, get_species(site), default_species)"] ++
      everySite [.plain "call touchup_site(to_coord(n))"] }

def nameTable (function argument : String) (entries : List String) : Procedure :=
  let width := (entries.map fun entry => byteLength entry.toList).foldl max 1
  { kind := .function
    name := function
    arguments := [argument]
    result := some "name"
    declarations := [.integerArgument [argument], ⟨s!"character(len={width})", ["name"]⟩]
    body := selection argument
      (entries.flatMap (fun entry =>
          Body.branch entry (Body.of [.plain s!"name = {quote entry}"])) ++
        Body.of [.plain "case default"] ++ (Body.of [.plain "name = \"\""]).indent) }

def procedures (m : Model) (p : Plan) : List Procedure :=
  p.checks.map check ++
    p.updates.map (update (nameOf m)) ++
    p.touchups.map (touchup (nameOf m)) ++
    [touchupSite p.touchups, runProcess p.dispatch, step, resetState,
      nameTable "get_proc_name" "proc" (m.processes.map (·.name)),
      nameTable "get_species_name" "species" m.species,
      nameTable "get_site_name" "site_type" (p.sites.map (·.name))]

end ProcessModule

def processModule (m : Model) (p : Plan) : SourceModule :=
  { title := "kMC process list: availability updates and dispatch"
    fingerprint := p.fingerprint
    name := "proclist"
    imports := ProcessModule.imports
    declarations := ProcessModule.declarations m
    procedures := ProcessModule.procedures m p }

end LatticeKinetics.Fortran
