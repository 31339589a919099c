import LatticeKinetics.Fortran.Procedure
import LatticeKinetics.Plan.Basic

/-! The generated lattice module: how many sites there are, how they are numbered, and access to
what they hold. -/

namespace LatticeKinetics.Fortran

namespace LatticeModule

/-- The run-time procedures that the module wraps under their own names. -/
def renamed : List String :=
  ["get_species", "replace_species", "add_proc", "del_proc", "can_do"]

def imports : List String :=
  ["use kind_values",
    "use base, only: " ++ commaList (renamed.map fun name => s!"base_{name} => {name}")]

def parameters (ps : List Parameter) : Code :=
  Code.statements (ps.map (·.render))

def declarations (m : Model) (p : Plan) : Code :=
  parameters [
      ⟨"lattice_dimension", toString p.formula.dimension⟩,
      ⟨"spuck", toString p.formula.sitesPerCell⟩,
      ⟨"nr_of_layers", toString m.layers.length⟩] ++
    Code.blank ++
    Code.comment "site types" ++
    parameters (p.sites.map fun s => ⟨s.name, toString s.index⟩) ++
    Code.blank ++
    Code.statement "integer(kind=iint), dimension(3) :: system_size = (/1, 1, 1/)"

def setSystemSize : Procedure :=
  { kind := .subroutine
    name := "set_system_size"
    arguments := ["extents"]
    declarations :=
      [⟨"integer(kind=iint), dimension(lattice_dimension), intent(in)", ["extents"]⟩]
    body := Body.of [
      .plain "system_size = 1",
      .plain "system_size(1:lattice_dimension) = extents"] }

def toIndex (f : Formula) : Procedure :=
  { kind := .function
    modifier := "pure "
    name := "to_index"
    arguments := ["site"]
    result := some "n"
    declarations := [.siteArgument, .integer ["n"]]
    body := Body.of [.assign "n" (.forward f)] }

def toCoord (f : Formula) : Procedure :=
  { kind := .function
    modifier := "pure "
    name := "to_coord"
    arguments := ["n"]
    result := some "site"
    declarations := [.integerArgument ["n"], .siteVector "site", .integer ["cell"]]
    body := Body.of ([.assign "cell" .cellOfIndex, .assign "site(4)" .slotOfIndex] ++
      (inverseAssignments f).map fun a => .assign s!"site({a.position})" a.value) }

def getSpecies : Procedure :=
  { kind := .function
    name := "get_species"
    arguments := ["site"]
    declarations := [.siteArgument, .integer ["get_species"]]
    body := Body.of [.plain "get_species = base_get_species(to_index(site))"] }

def replaceSpecies : Procedure :=
  { kind := .subroutine
    name := "replace_species"
    arguments := ["site", "old_species", "new_species"]
    declarations := [.siteArgument, .integerArgument ["old_species", "new_species"]]
    body := Body.of
      [.plain "call base_replace_species(to_index(site), old_species, new_species)"] }

def listProcedure (name : String) : Procedure :=
  { kind := .subroutine
    name
    arguments := ["proc", "site"]
    declarations := [.integerArgument ["proc"], .siteArgument]
    body := Body.of [.plain s!"call base_{name}(proc, to_index(site))"] }

def canDo : Procedure :=
  { kind := .function
    modifier := "logical "
    name := "can_do"
    arguments := ["proc", "site"]
    declarations := [.integerArgument ["proc"], .siteArgument]
    body := Body.of [.plain "can_do = base_can_do(proc, to_index(site))"] }

def procedures (f : Formula) : List Procedure :=
  [setSystemSize, toIndex f, toCoord f, getSpecies, replaceSpecies,
    listProcedure "add_proc", listProcedure "del_proc", canDo]

end LatticeModule

def latticeModule (m : Model) (p : Plan) : SourceModule :=
  { title := "kMC lattice: index mapping and site access"
    fingerprint := p.fingerprint
    name := "lattice"
    imports := LatticeModule.imports
    declarations := LatticeModule.declarations m p
    procedures := LatticeModule.procedures p.formula }

end LatticeKinetics.Fortran
