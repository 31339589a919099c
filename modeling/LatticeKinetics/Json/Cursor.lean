import LatticeKinetics.Text.Number
import LatticeKinetics.Text.Shortest
import LatticeKinetics.Text.Visible

/-! Reading JSON text from front to back. The first problem met ends the reading, and it is reported
with the place where it was met: a line, and the bytes read of that line. -/

namespace LatticeKinetics.Json

inductive Found where
  | null
  | boolean (value : Bool)
  | integer (value : Int)
  | float (value : Float)
  | text (value : String)
  | list
  | object
deriving DecidableEq, Repr

def Found.render : Found → String
  | .null => "null"
  | .boolean value => s!"boolean `{value}`"
  | .integer value => s!"integer `{value}`"
  | .float value => s!"floating point `{Text.Shortest.render value}`"
  | .text value => s!"string {Text.quote value}"
  | .list => "sequence"
  | .object => "map"

inductive Misfit where
  | wrongType (found : Found) (expected : String)
  | wrongValue (found : Found) (expected : String)
  | wrongLength (found : Nat) (expected : String)
  | missingField (name : String)
  | repeatedField (name : String)
deriving DecidableEq, Repr

def Misfit.render : Misfit → String
  | .wrongType found expected => s!"invalid type: {found.render}, expected {expected}"
  | .wrongValue found expected => s!"invalid value: {found.render}, expected {expected}"
  | .wrongLength found expected => s!"invalid length {found}, expected {expected}"
  | .missingField name => s!"missing field `{name}`"
  | .repeatedField name => s!"duplicate field `{name}`"

inductive Cause where
  | endInList
  | endInObject
  | endInText
  | endInValue
  | expectedColon
  | expectedListEnd
  | expectedObjectEnd
  | expectedWord
  | expectedValue
  | expectedKey
  | invalidEscape
  | invalidNumber
  | numberOutOfRange
  | controlCharacter
  | loneSurrogate
  | brokenSurrogatePair
  | trailingComma
  | trailingCharacters
  | misfit (what : Misfit)
deriving DecidableEq, Repr

inductive Category where
  | truncated
  | malformed
  | unfitting
deriving DecidableEq, Repr

def Cause.category : Cause → Category
  | .endInList | .endInObject | .endInText | .endInValue => .truncated
  | .misfit _ => .unfitting
  | _ => .malformed

def Cause.render : Cause → String
  | .endInList => "EOF while parsing a list"
  | .endInObject => "EOF while parsing an object"
  | .endInText => "EOF while parsing a string"
  | .endInValue => "EOF while parsing a value"
  | .expectedColon => "expected `:`"
  | .expectedListEnd => "expected `,` or `]`"
  | .expectedObjectEnd => "expected `,` or `\x7d`"
  | .expectedWord => "expected ident"
  | .expectedValue => "expected value"
  | .expectedKey => "key must be a string"
  | .invalidEscape => "invalid escape"
  | .invalidNumber => "invalid number"
  | .numberOutOfRange => "number out of range"
  | .controlCharacter => "control character (\\u0000-\\u001F) found while parsing a string"
  | .loneSurrogate => "lone leading surrogate in hex escape"
  | .brokenSurrogatePair => "unexpected end of hex escape"
  | .trailingComma => "trailing comma"
  | .trailingCharacters => "trailing characters"
  | .misfit what => what.render

structure ReadError where
  cause : Cause
  line : Nat
  column : Nat
deriving DecidableEq, Repr

def ReadError.message (e : ReadError) : String :=
  s!"{e.cause.render} at line {e.line} column {e.column}"

structure Cursor where
  rest : List Char
  line : Nat
  column : Nat
deriving DecidableEq, Repr

namespace Cursor

def start (input : String) : Cursor :=
  ⟨input.toList, 1, 0⟩

def next (c : Cursor) : Cursor :=
  match c.rest with
  | [] => c
  | ch :: rest =>
    if ch = '\n' then ⟨rest, c.line + 1, 0⟩ else ⟨rest, c.line, c.column + ch.utf8Size⟩

def ahead (c : Cursor) : Nat × Nat :=
  match c.rest with
  | [] => (c.line, c.column)
  | ch :: _ => if ch = '\n' then (c.line + 1, 0) else (c.line, c.column + 1)

def skipWhile (p : Char → Bool) : Nat → Cursor → Cursor
  | 0, c => c
  | count + 1, c =>
    match c.rest with
    | [] => c
    | ch :: _ => if p ch then skipWhile p count c.next else c

def placeAfter : Nat → List Char → Nat → Nat → Nat × Nat
  | _, [], line, column => (line, column)
  | bytes, ch :: rest, line, column =>
    if bytes = 0 then (line, column)
    else if ch = '\n' then placeAfter (bytes - 1) rest (line + 1) 0
    else if bytes < ch.utf8Size then (line, column + bytes)
    else placeAfter (bytes - ch.utf8Size) rest line (column + ch.utf8Size)

end Cursor

abbrev Reader :=
  StateT Cursor (Except ReadError)

namespace Reader

variable {α : Type}

def failHere (cause : Cause) : Reader α := do
  let c ← get
  throw ⟨cause, c.line, c.column⟩

def failAhead (cause : Cause) : Reader α := do
  let c ← get
  throw ⟨cause, c.ahead.1, c.ahead.2⟩

def peek : Reader (Option Char) := do
  pure (← get).rest.head?

def advance : Reader Unit :=
  modify Cursor.next

def isSpace (c : Char) : Bool :=
  c == ' ' || c == '\n' || c == '\t' || c == '\r'

def peekPastSpace : Reader (Option Char) := do
  modify fun c => c.skipWhile isSpace c.rest.length
  peek

def takeWhile (p : Char → Bool) : Reader (List Char) := do
  let c ← get
  let taken := c.rest.takeWhile p
  set (c.skipWhile p taken.length)
  pure taken

/-- The rest of a word whose first letter is taken. -/
def word : List Char → Reader Unit
  | [] => pure ()
  | expected :: more => do
    match ← peek with
    | none => failHere .endInValue
    | some c =>
      if c = expected then
        advance
        word more
      else failAhead .expectedWord

end Reader
end LatticeKinetics.Json
