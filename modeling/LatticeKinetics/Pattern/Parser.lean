import LatticeKinetics.Pattern.Group

/-! Patterns as a whole: alternatives of sequences of terms, each of which may be repeated. -/

namespace LatticeKinetics.Pattern.Parser

open Text

def repeatable (terms : List Term) : Parser (Term × List Term) := do
  match terms with
  | [] => failAt (← point) .repetitionMissing
  | .empty _ :: _ => failAt (← point) .repetitionMissing
  | .flags .. :: _ => failAt (← point) .repetitionMissing
  | last :: before => pure (last, before)

/-- A question mark behind a repetition makes it reluctant. -/
def reluctance : Parser Unit := do
  if (← next?) = some '?' then bump

def simpleRepetition (terms : List Term) : Parser (List Term) := do
  let (last, before) ← repeatable terms
  bump
  reluctance
  pure (.repetition (← since last.span.start) false last :: before)

def count : Parser (Except Error Nat) := do
  bumpBlanks
  let start ← here
  let digits ← collectWhile isNumeral
  let span ← since start
  let _ ← collectWhile isBlank
  match readNat? digits with
  | none => pure (.error { fault := .countEmpty, span })
  | some n =>
    pure (if n < 4294967296 then .ok n else .error { fault := .decimalInvalid, span })

def ofResult {α : Type} (result : Except Error α) : Parser α :=
  match result with
  | .ok value => pure value
  | .error e => throw e

/-- Both bounds behind the opening brace, up to the closing one. What is wrong with the first
counts only when it is needed. -/
def countBounds (start : Position) : Parser (Nat × Option Nat) := do
  let first ← count
  match ← next? with
  | none => failAt (← since start) .countUnclosed
  | some ',' =>
    match ← step with
    | none => failAt (← since start) .countUnclosed
    | some '\x7d' => do pure (← ofResult first, none)
    | some _ => do
      let first ← ofResult first
      let last ← ofResult (← count)
      pure (first, some last)
  | some _ => do
    let first ← ofResult first
    pure (first, some first)

def countedRepetition (terms : List Term) : Parser (List Term) := do
  let start ← here
  let (last, before) ← repeatable terms
  if (← step).isNone then failAt (← since start) .countUnclosed
  let (low, high) ← countBounds start
  if (← next?) ≠ some '\x7d' then failAt (← since start) .countUnclosed
  let _ ← step
  reluctance
  if high.any (· < low) then failAt (← since start) .countInvalid
  else pure (.repetition (← since last.span.start) (high == some 0) last :: before)

def atom (c : Char) : Parser Term := do
  let span ← charSpan c
  if c = '\\' then escape
  else do
    bump
    if c = '.' then pure (.dot span)
    else if c = '^' ∨ c = '$' then pure (.edge span)
    else pure (.literal { span, char := c })

/-- The alternatives that are complete, and the terms of the one being read, both in reverse. -/
structure Level where
  start : Position
  branches : List Term := []
  branchStart : Position
  terms : List Term := []

namespace Level

def startingAt (p : Position) : Level :=
  { start := p, branchStart := p }

def branch (level : Level) (stop : Position) : Term :=
  match level.terms with
  | [] => .empty ⟨level.branchStart, stop⟩
  | [term] => term
  | terms => .sequence ⟨level.branchStart, stop⟩ terms.reverse

def close (level : Level) (stop : Position) : Term :=
  match level.branches with
  | [] => level.branch stop
  | branches => .alternation ⟨level.start, stop⟩ (branches.reverse ++ [level.branch stop])

end Level

/-- The rest of a group, or of the pattern if there is no `opening`. A closing parenthesis is left
where it is. -/
def alternatives (opening : Option Span) : Nat → Level → Parser Term
  | 0, level => do pure (level.close (← here))
  | fuel + 1, level => do
    skip
    match ← next? with
    | none =>
      match opening with
      | some paren => failAt paren .groupUnclosed
      | none => pure (level.close (← here))
    | some ')' =>
      if opening.isNone then failAt (← charSpan ')') .groupUnopened
      else pure (level.close (← here))
    | some '|' => do
      let branch := level.branch (← here)
      bump
      alternatives opening fuel
        { level with branches := branch :: level.branches, branchStart := ← here, terms := [] }
    | some '(' => do
      let verbose := (← get).verbose
      match ← openGroup with
      | .flags span flags => do
        modify fun cursor => { cursor with verbose := flags.verbose.getD verbose }
        alternatives opening fuel { level with terms := .flags span flags :: level.terms }
      | .group paren flags => do
        modify fun cursor => { cursor with verbose := flags.verbose.getD verbose }
        let inner ← alternatives (some paren) fuel (.startingAt (← here))
        modify fun cursor => { cursor with verbose }
        bump
        let group := Term.group (← since paren.start) flags inner
        alternatives opening fuel { level with terms := group :: level.terms }
    | some '[' => do
      let term ← bracketed
      alternatives opening fuel { level with terms := term :: level.terms }
    | some '\x7b' => do
      alternatives opening fuel { level with terms := ← countedRepetition level.terms }
    | some c =>
      if c = '?' ∨ c = '*' ∨ c = '+' then do
        alternatives opening fuel { level with terms := ← simpleRepetition level.terms }
      else do
        let term ← atom c
        alternatives opening fuel { level with terms := term :: level.terms }

end Parser

def parse (pattern : String) : Except Error Term :=
  let cs := pattern.toList
  ((Parser.alternatives none (cs.length + 1) (.startingAt {})).run { rest := cs }).map (·.1)

end LatticeKinetics.Pattern
