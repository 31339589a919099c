import LatticeKinetics.Pattern.Basic
import LatticeKinetics.Text.Character

/-! Going through the text of a pattern. In a verbose pattern, blanks and comments between the parts
mean nothing. -/

namespace LatticeKinetics.Pattern

open Text

structure Cursor where
  rest : List Char
  position : Position := {}
  verbose : Bool := false
  names : List (String × Span) := []

abbrev Parser :=
  StateT Cursor (Except Error)

namespace Parser

def failAt {α : Type} (span : Span) (fault : Fault) : Parser α :=
  throw { fault, span }

def next? : Parser (Option Char) := do
  pure (← get).rest.head?

def here : Parser Position := do
  pure (← get).position

def since (start : Position) : Parser Span := do
  pure ⟨start, ← here⟩

def point : Parser Span := do
  since (← here)

def charSpan (c : Char) : Parser Span := do
  let start ← here
  pure ⟨start, start.after c⟩

def bumps : Nat → Cursor → Cursor
  | 0, cursor => cursor
  | n + 1, cursor =>
    match cursor.rest with
    | [] => cursor
    | c :: cs => bumps n { cursor with rest := cs, position := cursor.position.after c }

def bump : Parser Unit :=
  modify (bumps 1)

def bumpOver (text : String) : Parser Bool := do
  if text.toList.isPrefixOf (← get).rest then
    modify (bumps text.length)
    pure true
  else pure false

/-- The number of characters in the blanks and comments ahead. A comment goes from a number sign to
the end of its line. -/
def idleLength (inComment : Bool) : List Char → Nat
  | [] => 0
  | c :: cs =>
    if inComment then 1 + idleLength (c ≠ '\n') cs
    else if isBlank c then 1 + idleLength false cs
    else if c = '#' then 1 + idleLength true cs
    else 0

def skip : Parser Unit :=
  modify fun cursor =>
    if cursor.verbose then bumps (idleLength false cursor.rest) cursor else cursor

def step : Parser (Option Char) := do
  bump
  skip
  next?

def bumpBlanks : Parser Unit :=
  modify fun cursor => bumps (cursor.rest.takeWhile isBlank).length cursor

def collect (accept : Char → Bool) : Nat → List Char → Parser (List Char)
  | 0, taken => pure taken.reverse
  | fuel + 1, taken => do
    match ← next? with
    | none => pure taken.reverse
    | some c =>
      if accept c then do
        let _ ← step
        collect accept fuel (c :: taken)
      else pure taken.reverse

def collectWhile (accept : Char → Bool) : Parser (List Char) := do
  collect accept (← get).rest.length []

/-- The character after the next one. In a verbose pattern blanks are passed over, and so is one
number sign, but not the comment behind it. -/
def ahead? : Parser (Option Char) := do
  let cursor ← get
  let cs := cursor.rest.tail
  if !cursor.verbose then pure cs.head?
  else
    let found := match cs.dropWhile isBlank with
      | '#' :: ds => (ds.dropWhile isBlank).head?
      | ds => ds.head?
    pure (found.or cs.head?)

end Parser
end LatticeKinetics.Pattern
