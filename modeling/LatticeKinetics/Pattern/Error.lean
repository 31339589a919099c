import LatticeKinetics.Text.Number

/-! What can be wrong with a search pattern, and how it is shown: the pattern line by line, with
marks under the place in question. -/

namespace LatticeKinetics.Pattern

/-- A place before a character. Lines and columns are counted from one. -/
structure Position where
  line : Nat := 1
  column : Nat := 1
deriving DecidableEq, Repr

def Position.after (p : Position) (c : Char) : Position :=
  if c = '\n' then ⟨p.line + 1, 1⟩ else ⟨p.line, p.column + 1⟩

def Position.isBefore (p q : Position) : Bool :=
  p.line < q.line || (p.line == q.line && p.column < q.column)

structure Span where
  start : Position
  stop : Position
deriving DecidableEq, Repr

namespace Span

def isOneLine (s : Span) : Bool :=
  s.start.line == s.stop.line

def isBefore (s t : Span) : Bool :=
  s.start.isBefore t.start || (s.start == t.start && s.stop.isBefore t.stop)

end Span

inductive Fault where
  | classEscape
  | classRange
  | classRangeLiteral
  | classUnclosed
  | decimalInvalid
  | hexEmpty
  | hexNotScalar
  | hexDigit
  | escapeUnexpectedEnd
  | escapeUnrecognized
  | flagDanglingNegation
  | flagRepeated
  | flagRepeatedNegation
  | flagUnexpectedEnd
  | flagUnrecognized
  | groupNameRepeated
  | groupNameEmpty
  | groupNameInvalid
  | groupNameUnexpectedEnd
  | groupUnclosed
  | groupUnopened
  | nestingTooDeep (limit : Nat)
  | countInvalid
  | countEmpty
  | countUnclosed
  | repetitionMissing
  | wordEdgeUnclosed
  | wordEdgeUnrecognized
  | wordEdgeUnexpectedEnd
  | propertyInvalid
  | backreference
  | lookAround
  | unicodeNotAllowed
  | invalidText
  | propertyNotFound
deriving DecidableEq, Repr

def Fault.message : Fault → String
  | classEscape => "invalid escape sequence found in character class"
  | classRange => "invalid character class range, the start must be <= the end"
  | classRangeLiteral => "invalid range boundary, must be a literal"
  | classUnclosed => "unclosed character class"
  | decimalInvalid => "decimal literal invalid"
  | hexEmpty => "hexadecimal literal empty"
  | hexNotScalar => "hexadecimal literal is not a Unicode scalar value"
  | hexDigit => "invalid hexadecimal digit"
  | escapeUnexpectedEnd => "incomplete escape sequence, reached end of pattern prematurely"
  | escapeUnrecognized => "unrecognized escape sequence"
  | flagDanglingNegation => "dangling flag negation operator"
  | flagRepeated => "duplicate flag"
  | flagRepeatedNegation => "flag negation operator repeated"
  | flagUnexpectedEnd => "expected flag but got end of regex"
  | flagUnrecognized => "unrecognized flag"
  | groupNameRepeated => "duplicate capture group name"
  | groupNameEmpty => "empty capture group name"
  | groupNameInvalid => "invalid capture group character"
  | groupNameUnexpectedEnd => "unclosed capture group name"
  | groupUnclosed => "unclosed group"
  | groupUnopened => "unopened group"
  | nestingTooDeep limit =>
    s!"exceed the maximum number of nested parentheses/brackets ({limit})"
  | countInvalid => "invalid repetition count range, the start must be <= the end"
  | countEmpty => "repetition quantifier expects a valid decimal"
  | countUnclosed => "unclosed counted repetition"
  | repetitionMissing => "repetition operator missing expression"
  | wordEdgeUnclosed =>
    "special word boundary assertion is either unclosed or contains an invalid character"
  | wordEdgeUnrecognized =>
    "unrecognized special word boundary assertion, valid choices are: start, end, " ++
      "start-half or end-half"
  | wordEdgeUnexpectedEnd =>
    "found either the beginning of a special word boundary or a bounded repetition on a \\b " ++
      "with an opening brace, but no closing brace"
  | propertyInvalid => "invalid Unicode character class"
  | backreference => "backreferences are not supported"
  | lookAround => "look-around, including look-ahead and look-behind, is not supported"
  | unicodeNotAllowed => "Unicode not allowed here"
  | invalidText => "pattern can match invalid UTF-8"
  | propertyNotFound => "Unicode property not found"

structure Error where
  fault : Fault
  span : Span
  /-- The earlier place that the fault repeats. -/
  earlier : Option Span := none
deriving DecidableEq, Repr

namespace Error

def spans (e : Error) : List Span :=
  match e.earlier with
  | none => [e.span]
  | some earlier => if e.span.isBefore earlier then [e.span, earlier] else [earlier, e.span]

/-- Lines without their ends. A carriage return belongs to the end only before a line feed. -/
def lines (pattern : List Char) : List (List Char) :=
  let pieces := pattern.splitOn '\n'
  let ended := pieces.dropLast.map fun line =>
    if line.getLast? = some '\r' then line.dropLast else line
  match pieces.getLast? with
  | none => ended
  | some last => if last.isEmpty then ended else ended ++ [last]

/-- At least one mark under each span, from the column `done` on. -/
def marks (done : Nat) : List Span → List Char
  | [] => []
  | s :: rest =>
    let blanks := s.start.column - 1 - done
    let width := max 1 (s.stop.column - s.start.column)
    List.replicate blanks ' ' ++ List.replicate width '^' ++ marks (done + blanks + width) rest

/-- A line with its margin, and below it the marks, if there are any. Lines are numbered unless
there is only one. -/
def showLine (width : Nat) (spans : List Span) (number : Nat) (line : List Char) : String :=
  let margin := if width = 0 then "    " else Text.padLeft width s!"{number}" ++ ": "
  let inLine := spans.filter fun s => s.isOneLine && s.start.line == number
  margin ++ String.ofList line ++ "\n" ++
    if inLine.isEmpty then ""
    else Text.padLeft margin.length "" ++ String.ofList (marks 0 inLine) ++ "\n"

def showLines (width : Nat) (spans : List Span) (number : Nat) : List (List Char) → String
  | [] => ""
  | line :: rest => showLine width spans number line ++ showLines width spans (number + 1) rest

def showLong (s : Span) : String :=
  s!"on line {s.start.line} (column {s.start.column}) through line {s.stop.line} " ++
    s!"(column {s.stop.column - 1})\n"

def render (pattern : String) (e : Error) : String :=
  let cs := pattern.toList
  let shown := lines cs
  let count := shown.length + if cs.getLast? = some '\n' then 1 else 0
  let width := if count ≤ 1 then 0 else (Nat.toDigits 10 count).length
  let body := showLines width e.spans 1 shown
  let body :=
    if cs.contains '\n' then
      let divider := String.ofList (List.replicate 79 '~') ++ "\n"
      divider ++ body ++ divider ++
        String.join ((e.spans.filter fun s => !s.isOneLine).map showLong)
    else body
  s!"regex parse error:\n{body}error: {e.fault.message}"

end Error
end LatticeKinetics.Pattern
