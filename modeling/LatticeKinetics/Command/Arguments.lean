import LatticeKinetics.Output.Settings
import LatticeKinetics.Text.Number

/-! The command line, read from left to right. What is wrong with it is found at the first argument
that does not fit, or at the end if something is missing. An option whose value is an argument of
its own is settled only when the next option or model is read; before a command, that is after all
arguments of the command. -/

namespace LatticeKinetics

inductive Command where
  | build (model : String) (settings : Settings)
  | check (model : String)
  | inspect (model : String)
deriving DecidableEq, Repr

structure Invocation where
  logLevel : Option String
  command : Command
deriving DecidableEq, Repr

inductive CommandName where
  | build
  | check
  | inspect
deriving DecidableEq, Repr

def CommandName.render : CommandName → String
  | .build => "build"
  | .check => "check"
  | .inspect => "inspect"

/-- Options are understood before the name of a command, and after it. -/
abbrev Scope :=
  Option CommandName

inductive UsageError where
  | unknownArgument (argument : String)
  | missingValue
  | unexpectedValue (argument : String)
  | invalidValue (value : String)
  | repeatedOption
  | missingCommand
  | missingModel
deriving DecidableEq, Repr

def UsageError.message : UsageError → String
  | .unknownArgument argument => s!"unexpected argument '{argument}'"
  | .missingValue => "an option lacks its value"
  | .unexpectedValue argument => s!"no value is expected in '{argument}'"
  | .invalidValue value => s!"invalid value '{value}'"
  | .repeatedOption => "an option is given more than once"
  | .missingCommand => "one of build, check and inspect is required"
  | .missingModel => "the model file is required"

inductive Interruption where
  | misuse (cause : UsageError)
  | version (scope : Scope)
  | help
deriving DecidableEq, Repr

inductive Setting where
  | logLevel
  | output
  | latticeFile
  | proclistFile
  | indent
deriving DecidableEq, Repr

inductive Switch where
  | force
  | version
  | help
deriving DecidableEq, Repr

inductive OptionName where
  | setting (name : Setting)
  | switch (name : Switch)
deriving DecidableEq, Repr

structure Collected where
  logLevel : Option String := none
  model : Option String := none
  output : Option String := none
  latticeFile : Option String := none
  proclistFile : Option String := none
  indent : Option Nat := none
  force : Bool := false
deriving DecidableEq, Repr

namespace Arguments

open Text

def commandNamed? (name : String) : Option CommandName :=
  match name with
  | "build" => some .build
  | "b" => some .build
  | "check" => some .check
  | "inspect" => some .inspect
  | _ => none

def readHelp : List String → Interruption
  | [] => .help
  | [topic] =>
    if topic == "help" || (commandNamed? topic).isSome then .help
    else .misuse (.unknownArgument topic)
  | _ :: topic :: _ => .misuse (.unknownArgument topic)

def longOption? (scope : Scope) (name : String) : Option OptionName :=
  match name, scope with
  | "log-level", _ => some (.setting .logLevel)
  | "version", _ => some (.switch .version)
  | "help", _ => some (.switch .help)
  | "output", some .build => some (.setting .output)
  | "force", some .build => some (.switch .force)
  | "lattice-file", some .build => some (.setting .latticeFile)
  | "proclist-file", some .build => some (.setting .proclistFile)
  | "indent", some .build => some (.setting .indent)
  | _, _ => none

def shortOption? (scope : Scope) (name : Char) : Option OptionName :=
  match name, scope with
  | 'V', _ => some (.switch .version)
  | 'h', _ => some (.switch .help)
  | 'o', some .build => some (.setting .output)
  | 'f', some .build => some (.switch .force)
  | _, _ => none

/-- A number that fits an unsigned 64-bit word, with at most a plus sign in front. -/
def readWord64? (text : String) : Option Nat :=
  let digits := match text.toList with
    | '+' :: cs => cs
    | cs => cs
  (readNat? digits).filter (· < 18446744073709551616)

def once {α : Type} (earlier : Option α) (value : α) : Except Interruption (Option α) :=
  if earlier.isSome then .error (.misuse .repeatedOption) else .ok (some value)

def checkPath (text : String) : Except Interruption Unit :=
  if text.isEmpty then .error (.misuse (.invalidValue text)) else .ok ()

def assign (c : Collected) (value : String) : Setting → Except Interruption Collected
  | .logLevel => do pure { c with logLevel := ← once c.logLevel value }
  | .output => do
    checkPath value
    pure { c with output := ← once c.output value }
  | .latticeFile => do pure { c with latticeFile := ← once c.latticeFile value }
  | .proclistFile => do pure { c with proclistFile := ← once c.proclistFile value }
  | .indent =>
    match readWord64? value with
    | none => .error (.misuse (.invalidValue value))
    | some n => do pure { c with indent := ← once c.indent n }

def turnOn (scope : Scope) (c : Collected) : Switch → Except Interruption Collected
  | .force => if c.force then .error (.misuse .repeatedOption) else .ok { c with force := true }
  | .version => .error (.version scope)
  | .help => .error .help

inductive Pending where
  | nothing
  | waiting (setting : Setting)
  | given (setting : Setting) (value : String)
deriving DecidableEq, Repr

def settle (c : Collected) : Pending → Except Interruption Collected
  | .nothing => .ok c
  | .waiting _ => .error (.misuse .missingValue)
  | .given s value => assign c value s

inductive Shape where
  | value
  /-- Two dashes alone: no options follow. -/
  | escape
  | long (name : String) (value : Option String)
  | short (letters : List Char)
deriving DecidableEq, Repr

def shape (argument : String) : Shape :=
  match argument.toList with
  | ['-', '-'] => .escape
  | '-' :: '-' :: cs =>
    let name := String.ofList (cs.takeWhile (· ≠ '='))
    match cs.dropWhile (· ≠ '=') with
    | [] => .long name none
    | _ :: value => .long name (some (String.ofList value))
  | '-' :: c :: cs => .short (c :: cs)
  | _ => .value

def readLong (scope : Scope) (c : Collected) (name : String) (value : Option String) :
    Except Interruption (Collected × Pending) :=
  match longOption? scope name, value with
  | none, _ => .error (.misuse (.unknownArgument s!"--{name}"))
  | some (.setting s), some value => do pure (← assign c value s, .nothing)
  | some (.setting s), none => .ok (c, .waiting s)
  | some (.switch _), some _ => .error (.misuse (.unexpectedValue s!"--{name}"))
  | some (.switch s), none => do pure (← turnOn scope c s, .nothing)

/-- Short options in one argument: switches, and at last perhaps a setting with its value, which may
stand behind an equals sign. -/
def readShort (scope : Scope) (c : Collected) :
    List Char → Except Interruption (Collected × Pending)
  | [] => .ok (c, .nothing)
  | letter :: letters =>
    match shortOption? scope letter with
    | none => .error (.misuse (.unknownArgument s!"-{letter}"))
    | some (.switch s) => do
      let c ← turnOn scope c s
      readShort scope c letters
    | some (.setting s) =>
      match letters with
      | [] => .ok (c, .waiting s)
      | '=' :: value => do pure (← assign c (String.ofList value) s, .nothing)
      | value => do pure (← assign c (String.ofList value) s, .nothing)

/-- Only commands have an argument of their own, the model. -/
def readModel (scope : Scope) (c : Collected) (argument : String) :
    Except Interruption Collected :=
  if scope.isNone || c.model.isSome then .error (.misuse (.unknownArgument argument))
  else do
    checkPath argument
    pure { c with model := some argument }

def readModels (scope : Scope) : Collected → List String → Except Interruption Collected
  | c, [] => .ok c
  | c, argument :: rest => do
    let c ← readModel scope c argument
    readModels scope c rest

structure Reading where
  collected : Collected
  pending : Pending := .nothing
  command : Option (CommandName × List String) := none
deriving DecidableEq, Repr

def Reading.settled (r : Reading) : Except Interruption Collected :=
  settle r.collected r.pending

/-- Read up to the name of a command, if there is one. An option that waits for its value takes the
next argument unless that looks like an option itself. -/
def read (scope : Scope) (c : Collected) (pending : Pending) :
    List String → Except Interruption Reading
  | [] => .ok { collected := c, pending }
  | argument :: rest =>
    match shape argument, pending with
    | .value, .waiting s => read scope c (.given s argument) rest
    | .escape, _ => do pure { collected := ← readModels scope (← settle c pending) rest }
    | .long name value, _ => do
      let (c, pending) ← readLong scope (← settle c pending) name value
      read scope c pending rest
    | .short letters, _ => do
      let (c, pending) ← readShort scope (← settle c pending) letters
      read scope c pending rest
    | .value, _ =>
      match if scope.isNone then commandNamed? argument else none with
      | some name => .ok { collected := c, pending, command := some (name, rest) }
      | none =>
        if scope.isNone && argument == "help" then .error (readHelp rest)
        else do
          let c ← readModel scope (← settle c pending) argument
          read scope c .nothing rest

def settings (c : Collected) : Settings :=
  let usual : Settings := {}
  { outputDir := (c.output.map .ofText).getD usual.outputDir
    latticeFile := c.latticeFile.getD usual.latticeFile
    proclistFile := c.proclistFile.getD usual.proclistFile
    overwrite := if c.force then .force else .refuse
    indent := c.indent.getD usual.indent }

def command (name : CommandName) (model : String) (c : Collected) : Command :=
  match name with
  | .build => .build model (settings c)
  | .check => .check model
  | .inspect => .inspect model

/-- The log level may stand before the command and after it; the latter counts. -/
def parse (arguments : List String) : Except Interruption Invocation := do
  let outer ← read none {} .nothing arguments
  match outer.command with
  | none => throw (.misuse .missingCommand)
  | some (name, rest) =>
    let inner ← (← read (some name) {} .nothing rest).settled
    let outer ← outer.settled
    match inner.model with
    | none => throw (.misuse .missingModel)
    | some model =>
      pure { logLevel := inner.logLevel.or outer.logLevel, command := command name model inner }

end Arguments
end LatticeKinetics
