import LatticeKinetics.Files.Pathname

/-! Where generated sources go and how they are laid out. -/

namespace LatticeKinetics

inductive Overwrite where
  /-- Ask, and refuse if the answer is no. -/
  | refuse
  | force
deriving DecidableEq, Repr

structure Settings where
  outputDir : Pathname := .ofText "."
  latticeFile : String := "lattice.f90"
  proclistFile : String := "proclist.f90"
  overwrite : Overwrite := .refuse
  indent : Nat := 4
deriving DecidableEq, Repr

inductive SettingsError where
  | latticeNotPlain (name : String)
  | proclistNotPlain (name : String)
  | sameFile (name : String)
  | indentOutOfRange (indent : Nat)
deriving DecidableEq, Repr

namespace Settings

def maxIndent : Nat := 8

def latticePath (s : Settings) : Pathname :=
  s.outputDir.join s.latticeFile

def proclistPath (s : Settings) : Pathname :=
  s.outputDir.join s.proclistFile

/-- A plain name stays in its directory: no slash, and neither of the two names for directories. -/
def isPlainName (name : String) : Bool :=
  name != "" && name != "." && name != ".." && !name.toList.contains '/'

def validate (s : Settings) : Except SettingsError Unit :=
  if !isPlainName s.latticeFile then .error (.latticeNotPlain s.latticeFile)
  else if !isPlainName s.proclistFile then .error (.proclistNotPlain s.proclistFile)
  else if s.latticeFile = s.proclistFile then .error (.sameFile s.latticeFile)
  else if s.indent = 0 ∨ maxIndent < s.indent then .error (.indentOutOfRange s.indent)
  else .ok ()

end Settings

def SettingsError.message : SettingsError → String
  | .latticeNotPlain name => s!"lattice file name '{name}' must be a plain file name"
  | .proclistNotPlain name => s!"proclist file name '{name}' must be a plain file name"
  | .sameFile name => s!"lattice and proclist files are both named '{name}'"
  | .indentOutOfRange indent =>
    s!"indent must be between 1 and {Settings.maxIndent}, got {indent}"

end LatticeKinetics
