import LatticeKinetics.Command.Arguments
import LatticeKinetics.Command.LogFilter
import LatticeKinetics.Document
import LatticeKinetics.Output.Delivery
import LatticeKinetics.Report

/-! What the commands do and what they print. -/

namespace LatticeKinetics

inductive Outcome where
  | misused (cause : UsageError)
  | finished (exit : Nat) (output errors : String)
deriving DecidableEq, Repr

inductive CommandError where
  | logLevel (text : String) (cause : LogFilterError)
  | unreadable (path : String) (fault : FileFault)
  | invalidModel (path : String) (cause : LoadError)
  | compile (path : String) (cause : CompileError)
  | build (path : String) (cause : OutputError)
deriving DecidableEq, Repr

namespace CommandError

def headline : CommandError → String
  | logLevel text _ => s!"Invalid log level: {text}"
  | unreadable path _ => s!"Failed to read model file: {path}"
  | invalidModel path _ => s!"Invalid model: {path}"
  | compile path _ => s!"Compilation failed for {path}"
  | build path _ => s!"Build failed for {path}"

def causes : CommandError → List String
  | logLevel _ cause => cause.causes
  | unreadable _ fault => [fault.message]
  | invalidModel _ cause =>
    match cause with
    | .unreadable inner => [cause.message, inner.message]
    | .coordinate _ _ _ inner => [cause.message, inner.message]
    | .invalid _ => [cause.message]
  | compile _ cause => [cause.message]
  | build _ cause =>
    match cause with
    | .file _ fault => [cause.message, fault.message]
    | _ => [cause.message]

def fileHint : FileFault → Option String
  | .notFound => some "check that the model path is correct"
  | _ => none

def modelHint : ModelError → Option String
  | .missingConversion _ =>
    some "add a \"conversions\" entry for the layer pair, or set \"shared_unit_cell\""
  | .ambiguousEmptySpecies .. =>
    some "the default species cannot be put or taken; check \"default_species\""
  | .missingAnchor _ => some "every process needs a condition at offset (0,0,0)"
  | _ => none

def compileHint : CompileError → Option String
  | .nameCollision .. =>
    some "generated names share one namespace, case-insensitively; rename one of them"
  | .model cause => modelHint cause
  | .lattice _ => none

def loadHint : LoadError → Option String
  | .coordinate .. =>
    some "coordinates are written as site.(dx,dy,dz) or site.(dx,dy,dz).layer"
  | .invalid cause => modelHint cause
  | .unreadable _ => none

def outputHint : OutputError → Option String
  | .conflict _ => some "pass --force to overwrite, or choose another directory with -o"
  | .identifierTooLong _ => some "shorten the process, species or site name"
  | .compile cause => compileHint cause
  | .file _ fault => fileHint fault
  | _ => none

def hint : CommandError → Option String
  | logLevel .. => none
  | unreadable _ fault => fileHint fault
  | invalidModel _ cause => loadHint cause
  | compile _ cause => compileHint cause
  | build _ cause => outputHint cause

def render (e : CommandError) : String :=
  String.join (s!"error: {e.headline}\n" ::
    (e.causes.map (fun cause => s!"  caused by: {cause}\n") ++
      e.hint.toList.map fun hint => s!"  hint: {hint}\n"))

end CommandError

def isYes (reply : String) : Bool :=
  let word := Text.foldCase (String.ofList (Text.trim reply.toList))
  word == "y" || word == "yes"

section

variable {m : Type → Type} [Monad m]

namespace Command

def loadModel (disk : Disk m) (path : String) : m (Except CommandError Model) := do
  match ← disk.read (.ofText path) with
  | .error fault => pure (.error (.unreadable path fault))
  | .ok text => pure ((Model.load text).mapError (.invalidModel path))

def checkText (path : String) (report : Report) : String :=
  s!"{path}: ok ({report.processes} processes, {report.events.length} update procedures, " ++
    s!"{report.totalQueries} queries, fingerprint {Text.hex16 report.fingerprint})\n"

def builtText (built : Built) : String :=
  String.join (built.paths.map fun path => s!"wrote {path.render}\n") ++
    s!"model fingerprint: {Text.hex16 built.plan.fingerprint}\n"

def reportOf (path : String) (model : Model) : Except CommandError Report :=
  (model.compile.mapError (.compile path)).map (·.report)

def run (disk : Disk m) : Command → m (Except CommandError String)
  | build path settings => do
    match ← loadModel disk path with
    | .error e => pure (.error e)
    | .ok model =>
      let built ← model.build disk settings
      pure ((built.mapError (.build path)).map builtText)
  | check path => do
    let model ← loadModel disk path
    pure (model.bind fun model => (reportOf path model).map (checkText path))
  | inspect path => do
    let model ← loadModel disk path
    pure (model.bind fun model => (reportOf path model).map (·.render ++ "\n"))

end Command

/-- The log level is looked at before anything else is done. -/
def Invocation.run (disk : Disk m) (invocation : Invocation) : m (Except CommandError String) :=
  match invocation.logLevel with
  | none => invocation.command.run disk
  | some text =>
    match LogFilter.check text with
    | .error cause => pure (.error (.logLevel text cause))
    | .ok _ => invocation.command.run disk

def versionText (scope : Scope) : String :=
  match scope with
  | none => s!"{programName} {programVersion}\n"
  | some name => s!"{programName}-{name.render} {programVersion}\n"

def usageText : String :=
  s!"usage: {programName} [--log-level LEVEL] build|check|inspect MODEL\n" ++
    "build takes also: -o DIR, -f, --lattice-file NAME, --proclist-file NAME, --indent N\n"

def execute (disk : Disk m) (arguments : List String) : m Outcome :=
  match Arguments.parse arguments with
  | .error (.misuse cause) => pure (.misused cause)
  | .error (.version scope) => pure (.finished 0 (versionText scope) "")
  | .error .help => pure (.finished 0 usageText "")
  | .ok invocation => do
    match ← invocation.run disk with
    | .ok output => pure (.finished 0 output "")
    | .error e => pure (.finished 1 "" e.render)

end

end LatticeKinetics
