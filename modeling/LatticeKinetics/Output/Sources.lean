import LatticeKinetics.Files.Tree
import LatticeKinetics.Fortran.ProcessModule
import LatticeKinetics.Output.Settings
import LatticeKinetics.Plan.Compile

/-! The texts of both generated files, and why none are generated or delivered. -/

namespace LatticeKinetics

def maxIdentifier : Nat := 63

inductive OutputError where
  | compile (cause : CompileError)
  | settings (cause : SettingsError)
  | planMismatch (plan model : UInt64)
  | identifierTooLong (name : String)
  | conflict (path : Pathname)
  | file (path : Pathname) (fault : FileFault)
deriving DecidableEq, Repr

def OutputError.message : OutputError → String
  | .compile cause => cause.message
  | .settings cause => s!"invalid emit configuration: {cause.message}"
  | .planMismatch plan model =>
    s!"kernel plan fingerprint {Text.hex16 plan} does not match " ++
      s!"model fingerprint {Text.hex16 model}"
  | .identifierTooLong name =>
    s!"generated identifier '{name}' is {Text.byteLength name.toList} characters long, " ++
      s!"the limit is {maxIdentifier}"
  | .conflict path => s!"output file {path.render} already exists (use --force to overwrite)"
  | .file path fault => s!"I/O error on {path.render}: {fault.message}"

structure Sources where
  lattice : String
  proclist : String
deriving DecidableEq, Repr

def checkIdentifier (name : String) : Except OutputError Unit :=
  if maxIdentifier < Text.byteLength name.toList then .error (.identifierTooLong name) else .ok ()

def checkIdentifiers : List String → Except OutputError Unit
  | [] => .ok ()
  | name :: names => do
    checkIdentifier name
    checkIdentifiers names

def Plan.identifiers (m : Model) (p : Plan) : List String :=
  p.sites.map (·.name) ++
    m.processes.map (·.name) ++
    m.species ++
    p.checks.map (·.name) ++
    p.updates.map (·.name) ++
    p.touchups.map (·.name)

def Model.generate (m : Model) (p : Plan) (s : Settings) : Except OutputError Sources := do
  s.validate.mapError .settings
  if p.fingerprint ≠ m.fingerprint then throw (.planMismatch p.fingerprint m.fingerprint)
  checkIdentifiers (p.identifiers m)
  pure {
    lattice := (Fortran.latticeModule m p).render s.indent
    proclist := (Fortran.processModule m p).render s.indent }

end LatticeKinetics
