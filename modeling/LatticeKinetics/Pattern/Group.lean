import LatticeKinetics.Pattern.Class
import LatticeKinetics.Text.Letter

/-! What a parenthesis opens: a group with or without a name, a group with flags, or flags for the
rest of the group around them. -/

namespace LatticeKinetics.Pattern.Parser

open Text

inductive Opening where
  | group (span : Span) (flags : Flags)
  | flags (span : Span) (flags : Flags)

/-- A letter or underscore, then also digits, dots and brackets. -/
def isGroupNameChar (isFirst : Bool) (c : Char) : Bool :=
  if isFirst then c == '_' || isAlphabetic c
  else c == '_' || c == '.' || c == '[' || c == ']' || isAlphanumeric c

def groupNameChars : Nat → List Char → Parser (List Char)
  | 0, _ => do failAt (← point) .groupNameUnexpectedEnd
  | fuel + 1, taken => do
    match ← next? with
    | none => failAt (← point) .groupNameUnexpectedEnd
    | some '>' => pure taken.reverse
    | some c =>
      if isGroupNameChar taken.isEmpty c then do
        bump
        groupNameChars fuel (c :: taken)
      else failAt (← charSpan c) .groupNameInvalid

def groupName : Parser Unit := do
  let start ← here
  let name ← groupNameChars ((← get).rest.length + 1) []
  let span ← since start
  bump
  if name.isEmpty then failAt ⟨start, start⟩ .groupNameEmpty
  let name := String.ofList name
  match (← get).names.lookup name with
  | some earlier => throw { fault := .groupNameRepeated, span, earlier }
  | none => modify fun cursor => { cursor with names := (name, span) :: cursor.names }

def flagLetters : List Char :=
  ['i', 'm', 's', 'U', 'u', 'R', 'x']

/-- Flags and at most one minus sign up to a colon or a closing parenthesis, each with its place. -/
def flagItems : Nat → List (Char × Span) → Parser (List (Char × Span))
  | 0, _ => do failAt (← point) .flagUnexpectedEnd
  | fuel + 1, taken => do
    match ← next? with
    | none => failAt (← point) .flagUnexpectedEnd
    | some c =>
      if c = ':' ∨ c = ')' then pure taken.reverse
      else do
        let span ← charSpan c
        if c ≠ '-' && !flagLetters.contains c then failAt span .flagUnrecognized
        match taken.lookup c with
        | some earlier =>
          let fault := if c = '-' then Fault.flagRepeatedNegation else .flagRepeated
          throw { fault, span, earlier }
        | none => do
          bump
          flagItems fuel ((c, span) :: taken)

def flagState? (flag : Char) (isNegated : Bool) : List Char → Option Bool
  | [] => none
  | c :: cs =>
    if c = flag then some (!isNegated) else flagState? flag (isNegated || c == '-') cs

def flagOpening (paren inner : Span) : Parser Opening := do
  if (← next?).isNone then failAt paren .groupUnclosed
  let items ← flagItems ((← get).rest.length + 1) []
  match items.getLast? with
  | some ('-', span) => failAt span .flagDanglingNegation
  | _ => pure ()
  let stop ← next?
  bump
  let letters := items.map (·.1)
  let flags : Flags :=
    { verbose := flagState? 'x' false letters, unicode := flagState? 'u' false letters }
  if stop = some ')' then
    if items.isEmpty then failAt inner .repetitionMissing
    else pure (.flags (← since paren.start) flags)
  else pure (.group paren flags)

/-- Look-around is written like a group. -/
def lookAround : Parser Bool :=
  bumpOver "?=" <||> bumpOver "?!" <||> bumpOver "?<=" <||> bumpOver "?<!"

def openGroup : Parser Opening := do
  let paren ← charSpan '('
  bump
  skip
  if ← lookAround then failAt (← since paren.start) .lookAround
  let inner ← point
  if ← bumpOver "?P<" <||> bumpOver "?<" then do
    groupName
    pure (.group paren {})
  else if ← bumpOver "?" then flagOpening paren inner
  else pure (.group paren {})

end LatticeKinetics.Pattern.Parser
