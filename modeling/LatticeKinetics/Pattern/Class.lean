import LatticeKinetics.Pattern.Escape

/-! Classes of characters in brackets. They nest, and `&&`, `--` and `~~` combine them from left to
right. -/

namespace LatticeKinetics.Pattern.Parser

def classNames : List String :=
  ["alnum", "alpha", "ascii", "blank", "cntrl", "digit", "graph", "lower", "print", "punct",
    "space", "upper", "word", "xdigit"]

def namedClass? : Parser (Option CharSet) := do
  let cursor ← get
  match cursor.rest with
  | '[' :: ':' :: cs =>
    let isNegated := cs.head? == some '^'
    let cs := if isNegated then cs.tail else cs
    let name := cs.takeWhile (· ≠ ':')
    if classNames.contains (String.ofList name) &&
        [':', ']'].isPrefixOf (cs.drop name.length) then do
      modify (bumps (name.length + if isNegated then 5 else 4))
      pure (some (.named (← since cursor.position) isNegated))
    else pure none
  | _ => pure none

structure ClassOpening where
  span : Span
  isNegated : Bool
  /-- The dashes, or the closing bracket, that stand for themselves. -/
  first : List CharSet

def leadingDashes (start : Position) : Nat → List CharSet → Parser (List CharSet)
  | 0, taken => pure taken
  | fuel + 1, taken => do
    if (← next?) ≠ some '-' then pure taken
    else do
      let span ← charSpan '-'
      match ← step with
      | none => failAt ⟨start, start⟩ .classUnclosed
      | some _ => leadingDashes start fuel (.literal { span, char := '-' } :: taken)

def openClass : Parser ClassOpening := do
  let start ← here
  let next ← step
  let isNegated := next == some '^'
  let next ← if isNegated then step else pure next
  if next.isNone then failAt (← since start) .classUnclosed
  let dashes ← leadingDashes start (← get).rest.length []
  if dashes.isEmpty && (← next?) == some ']' then do
    let span ← charSpan ']'
    match ← step with
    | none => failAt (← since start) .classUnclosed
    | some _ => pure ⟨← since start, isNegated, [.literal { span, char := ']' }]⟩
  else pure ⟨← since start, isNegated, dashes⟩

def classAtom : Parser Term := do
  match ← next? with
  | some '\\' => escape
  | some c => do
    let span ← charSpan c
    bump
    pure (.literal { span, char := c })
  | none => failAt (← point) .classUnclosed

def setOf (term : Term) : Parser CharSet :=
  match term with
  | .literal l => pure (.literal l)
  | .shorthand s => pure (.shorthand s)
  | .property p => pure (.property p)
  | _ => failAt term.span .classEscape

def boundaryOf (term : Term) : Parser Literal :=
  match term with
  | .literal l => pure l
  | _ => failAt term.span .classRangeLiteral

/-- One character, class or range. A dash before a closing bracket or a dash makes no range. -/
def classRange (opening : Span) : Parser CharSet := do
  let first ← classAtom
  skip
  match ← next? with
  | none => failAt opening .classUnclosed
  | some c =>
    let ahead ← ahead?
    if c ≠ '-' || ahead = some ']' || ahead = some '-' then setOf first
    else
      match ← step with
      | none => failAt opening .classUnclosed
      | some _ => do
        let last ← classAtom
        let span := ⟨first.span.start, last.span.stop⟩
        let low ← boundaryOf first
        let high ← boundaryOf last
        if high.char < low.char then failAt span .classRange
        else pure (.range span low high)

def unionOf (place : Span) (sets : List CharSet) : CharSet :=
  match sets with
  | [] => .empty place
  | [set] => set
  | last :: before =>
    .union ⟨(before.getLast?.getD last).span.start, last.span.stop⟩ (last :: before).reverse

/-- What comes after an operator is the right side of all that came before. -/
def combine (left : Option CharSet) (right : CharSet) : CharSet :=
  match left with
  | none => right
  | some left => .operation ⟨left.span.start, right.span.stop⟩ left right

/-- The rest of a class up to its closing bracket. `left` is what stands before the last operator,
and `sets` holds, in reverse, what has been read since. -/
def classRest (opening : ClassOpening) (left : Option CharSet) (place : Span) :
    Nat → List CharSet → Parser (Bool × Span × CharSet)
  | 0, _ => failAt opening.span .classUnclosed
  | fuel + 1, sets => do
    skip
    let ahead := (← get).rest.tail.head?
    match ← next? with
    | none => failAt opening.span .classUnclosed
    | some '[' =>
      match ← namedClass? with
      | some set => classRest opening left place fuel (set :: sets)
      | none => do
        let inner ← openClass
        let (isNegated, span, set) ← classRest inner none (← point) fuel inner.first
        classRest opening left place fuel (.bracketed span isNegated set :: sets)
    | some ']' => do
      bump
      pure (opening.isNegated, ← since opening.span.start, combine left (unionOf place sets))
    | some c =>
      if (c = '&' ∨ c = '-' ∨ c = '~') ∧ ahead = some c then do
        bump
        bump
        classRest opening (some (combine left (unionOf place sets))) (← point) fuel []
      else do
        let set ← classRange opening.span
        classRest opening left place fuel (set :: sets)

def bracketed : Parser Term := do
  let fuel := (← get).rest.length
  let opening ← openClass
  let (isNegated, span, set) ← classRest opening none (← point) (fuel + 1) opening.first
  pure (.bracketed span isNegated set)

end LatticeKinetics.Pattern.Parser
