import LatticeKinetics.Pattern.Parser

/-! Whether a search can be made of a pattern. It must not nest too deeply, and all it finds must be
text: where characters are read as bytes, nothing may match a part of a character. Edges of words
are known only to such byte patterns. -/

namespace LatticeKinetics.Pattern

def nestingLimit : Nat :=
  250

mutual

def CharSet.tooDeep? (room : Nat) : CharSet → Option Span
  | .bracketed span _ set => if room = 0 then some span else set.tooDeep? (room - 1)
  | .union span sets => if room = 0 then some span else CharSet.anyTooDeep? (room - 1) sets
  | .operation span left right =>
    if room = 0 then some span
    else (left.tooDeep? (room - 1)).or (right.tooDeep? (room - 1))
  | _ => none

def CharSet.anyTooDeep? (room : Nat) : List CharSet → Option Span
  | [] => none
  | set :: sets => (set.tooDeep? room).or (CharSet.anyTooDeep? room sets)

end

mutual

def Term.tooDeep? (room : Nat) : Term → Option Span
  | .bracketed span _ set => if room = 0 then some span else set.tooDeep? (room - 1)
  | .repetition span _ term => if room = 0 then some span else term.tooDeep? (room - 1)
  | .group span _ term => if room = 0 then some span else term.tooDeep? (room - 1)
  | .alternation span terms => if room = 0 then some span else Term.anyTooDeep? (room - 1) terms
  | .sequence span terms => if room = 0 then some span else Term.anyTooDeep? (room - 1) terms
  | _ => none

def Term.anyTooDeep? (room : Nat) : List Term → Option Span
  | [] => none
  | term :: terms => (term.tooDeep? room).or (Term.anyTooDeep? room terms)

end

def reject {α : Type} (span : Span) (fault : Fault) : Except Error α :=
  .error { fault, span }

def categoryLetters : List Char :=
  ['c', 'l', 'm', 'n', 'p', 's', 'z']

def Property.check (unicode : Bool) (p : Property) : Except Error Unit :=
  if !unicode then reject p.span .unicodeNotAllowed
  else
    match p.name with
    | .letter c =>
      if categoryLetters.contains c.toLower then .ok () else reject p.span .propertyNotFound
    | .named _ => .ok ()

/-- The negation of a class of ASCII characters has bytes in it that are no characters. -/
def checkNegation (unicode isNegated : Bool) (span : Span) : Except Error Unit :=
  if !unicode && isNegated then reject span .invalidText else .ok ()

/-- A byte beyond ASCII is not a character. -/
def Literal.check (unicode : Bool) (l : Literal) : Except Error Unit :=
  if !unicode && l.isByte && 128 ≤ l.char.toNat then reject l.span .invalidText else .ok ()

/-- In a class of bytes there are ASCII characters only. -/
def Literal.checkInSet (unicode : Bool) (l : Literal) : Except Error Unit := do
  l.check unicode
  if !unicode && 128 ≤ l.char.toNat then reject l.span .unicodeNotAllowed else .ok ()

mutual

def CharSet.check (unicode : Bool) : CharSet → Except Error Unit
  | .empty _ => .ok ()
  | .literal l => l.checkInSet unicode
  | .range _ first last => do
    first.checkInSet unicode
    last.checkInSet unicode
  | .named span isNegated => checkNegation unicode isNegated span
  | .property p => p.check unicode
  | .shorthand s => checkNegation unicode s.isNegated s.span
  | .bracketed span isNegated set => do
    set.check unicode
    checkNegation unicode isNegated span
  | .union _ sets => CharSet.checkAll unicode sets
  | .operation _ left right => do
    left.check unicode
    right.check unicode

def CharSet.checkAll (unicode : Bool) : List CharSet → Except Error Unit
  | [] => .ok ()
  | set :: sets => do
    set.check unicode
    CharSet.checkAll unicode sets

end

structure Reading where
  unicode : Bool := true
  wordEdge : Bool := false
deriving DecidableEq, Repr

mutual

/-- Flags hold up to the end of the group in which they stand. -/
def Term.check (reading : Reading) : Term → Except Error Reading
  | .empty _ => .ok reading
  | .flags _ f => .ok { reading with unicode := f.unicode.getD reading.unicode }
  | .literal l => do
    l.check reading.unicode
    pure reading
  | .dot span => do
    checkNegation reading.unicode true span
    pure reading
  | .edge _ => .ok reading
  | .wordEdge _ => .ok { reading with wordEdge := reading.wordEdge || reading.unicode }
  | .property p => do
    p.check reading.unicode
    pure reading
  | .shorthand s => do
    checkNegation reading.unicode s.isNegated s.span
    pure reading
  | .bracketed span isNegated set => do
    set.check reading.unicode
    checkNegation reading.unicode isNegated span
    pure reading
  | .repetition _ isVoid term => do
    let inner ← term.check reading
    pure (if isVoid then { inner with wordEdge := reading.wordEdge } else inner)
  | .group _ f term => do
    let inner ← term.check { reading with unicode := f.unicode.getD reading.unicode }
    pure { inner with unicode := reading.unicode }
  | .alternation _ terms => Term.checkAll reading terms
  | .sequence _ terms => Term.checkAll reading terms

def Term.checkAll (reading : Reading) : List Term → Except Error Reading
  | [] => .ok reading
  | term :: terms => do
    let reading ← term.check reading
    Term.checkAll reading terms

end

inductive Obstacle where
  | malformed (pattern : String) (cause : Error)
  | wordEdge
deriving DecidableEq, Repr

def Obstacle.message : Obstacle → String
  | .malformed .. => "error building NFA"
  | .wordEdge =>
    "unsupported regex feature for DFAs: cannot build DFAs for regexes with Unicode word " ++
      "boundaries; switch to ASCII word boundaries, or heuristically enable Unicode word " ++
      "boundaries or use a different regex engine"

def Obstacle.causes : Obstacle → List String
  | .malformed pattern cause => ["error parsing regex", cause.render pattern]
  | .wordEdge => []

def validate (pattern : String) : Except Error Reading := do
  let term ← parse pattern
  match term.tooDeep? nestingLimit with
  | some span => reject span (.nestingTooDeep nestingLimit)
  | none => term.check {}

def check (pattern : String) : Except Obstacle Unit := do
  let reading ← (validate pattern).mapError (.malformed pattern)
  if reading.wordEdge then throw .wordEdge

end LatticeKinetics.Pattern
