import LatticeKinetics.Pattern.Check
import LatticeKinetics.Text.Letter

/-! The filter for log lines, as it is given on the command line: directives with commas between
them. A directive names a level, or a target with an optional span and an optional level. A span may
ask for a field, and a field for a value: a number, a truth value, or a pattern. -/

namespace LatticeKinetics

inductive LogFilterError where
  | malformed
  | unknownLevel
  | field (cause : Pattern.Obstacle)
deriving DecidableEq, Repr

def LogFilterError.causes : LogFilterError → List String
  | .malformed => ["invalid filter directive"]
  | .unknownLevel =>
    let text := "error parsing level filter: expected one of \"off\", \"error\", \"warn\", " ++
      "\"info\", \"debug\", \"trace\", or a number 0-5"
    [text, text]
  | .field cause => s!"invalid field filter: {cause.message}" :: cause.message :: cause.causes

namespace LogFilter

open Text

def levelNames : List String :=
  ["off", "error", "warn", "info", "debug", "trace"]

def readLevelNumber? : List Char → Option Nat
  | '+' :: cs => readNat? cs
  | cs => readNat? cs

/-- No text at all is a level too. -/
def isLevel (cs : List Char) : Bool :=
  cs.isEmpty || (readLevelNumber? cs).any (· ≤ 5) ||
    levelNames.contains (foldCase (String.ofList cs))

def unsigned : List Char → List Char
  | '+' :: cs => cs
  | '-' :: cs => cs
  | cs => cs

def isExponent : List Char → Bool
  | [] => true
  | c :: cs => (c == 'e' || c == 'E') && (readNat? (unsigned cs)).isSome

/-- A decimal number with at least one digit before or behind its point, infinity, or no number. -/
def isNumber (cs : List Char) : Bool :=
  let cs := unsigned cs
  let whole := cs.takeWhile isNumeral
  let rest := cs.dropWhile isNumeral
  let (places, rest) := match rest with
    | '.' :: ds => (ds.takeWhile isNumeral, ds.dropWhile isNumeral)
    | ds => ([], ds)
  (!(whole.isEmpty && places.isEmpty) && isExponent rest) ||
    ["inf", "infinity", "nan"].contains (foldCase (String.ofList cs))

def isTruthValue (cs : List Char) : Bool :=
  ["true", "false"].contains (String.ofList cs)

/-- A field's value, if one is asked for, stands between the first two equals signs. -/
def checkField (cs : List Char) : Except LogFilterError Unit :=
  match cs.splitOn '=' with
  | _ :: value :: _ =>
    if isNumber value || isTruthValue value then .ok ()
    else (Pattern.check (String.ofList value)).mapError .field
  | _ => .ok ()

inductive Part where
  | start
  | target
  | span
  | field (place : Nat)
  | fieldsDone
  | spanDone
  | level (place : Nat)
deriving DecidableEq, Repr

/-- A directive starts with a span, a letter, a digit, or one of three other characters. -/
def startsTarget (c : Char) : Bool :=
  isAlphanumeric c || c == '-' || c == ':' || c == '_'

def dropBytes : Nat → List Char → List Char
  | _, [] => []
  | n, c :: cs => if n = 0 then c :: cs else dropBytes (n - c.utf8Size) cs

def takeBytes : Nat → List Char → List Char
  | _, [] => []
  | n, c :: cs => if n = 0 then [] else c :: takeBytes (n - c.utf8Size) cs

def next (directive : List Char) (place : Nat) (c : Char) : Part → Except LogFilterError Part
  | .start =>
    if c = '[' then .ok .span
    else if startsTarget c then .ok .target
    else .error .malformed
  | .target =>
    if c = '=' then .ok (.level (place + 1)) else if c = '[' then .ok .span else .ok .target
  | .span =>
    if c = ']' then .ok .spanDone
    else if c = '\x7b' then .ok (.field (place + 1))
    else .ok .span
  | .field start =>
    if c = '\x7d' then
      if start = place then .error .malformed
      else do
        checkField (takeBytes (place - start) (dropBytes start directive))
        pure .fieldsDone
    else .ok (.field start)
  | .fieldsDone => if c = ']' then .ok .spanDone else .error .malformed
  | .spanDone => if c = '=' then .ok (.level (place + 1)) else .error .malformed
  | .level start => .ok (.level start)

def readParts (directive : List Char) :
    Nat → List Char → Part → Except LogFilterError Part
  | _, [], part => .ok part
  | place, c :: cs, part => do
    let part ← next directive place c part
    readParts directive (place + c.utf8Size) cs part

/-- The parts are found in the directive without the blanks around it, but fields and level are cut
out of the directive as it stands, at the same places. -/
def checkDirective (cs : List Char) : Except LogFilterError Unit := do
  match ← readParts cs 0 (trim cs) .start with
  | .target => pure ()
  | .spanDone => pure ()
  | .level place => if isLevel (dropBytes place cs) then pure () else throw .unknownLevel
  | _ => throw .malformed

def checkDirectives : List (List Char) → Except LogFilterError Unit
  | [] => .ok ()
  | directive :: rest => do
    checkDirective directive
    checkDirectives rest

def check (text : String) : Except LogFilterError Unit :=
  checkDirectives ((text.toList.splitOn ',').filter (!·.isEmpty))

end LogFilter
end LatticeKinetics
