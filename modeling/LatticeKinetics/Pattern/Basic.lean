import LatticeKinetics.Pattern.Error

/-! Search patterns: regular expressions as terms, each with its place in the text. -/

namespace LatticeKinetics.Pattern

structure Literal where
  span : Span
  char : Char
  /-- Two hexadecimal digits may stand for a byte as well as for a character. -/
  isByte : Bool := false
deriving DecidableEq, Repr

inductive PropertyName where
  | letter (c : Char)
  | named (name : String)
deriving DecidableEq, Repr

structure Property where
  span : Span
  name : PropertyName
deriving DecidableEq, Repr

structure Shorthand where
  span : Span
  isNegated : Bool
deriving DecidableEq, Repr

inductive CharSet where
  | empty (span : Span)
  | literal (literal : Literal)
  | range (span : Span) (first last : Literal)
  | named (span : Span) (isNegated : Bool)
  | property (property : Property)
  | shorthand (shorthand : Shorthand)
  | bracketed (span : Span) (isNegated : Bool) (set : CharSet)
  | union (span : Span) (sets : List CharSet)
  | operation (span : Span) (left right : CharSet)

/-- Flags that change how a pattern is read or what it means; none is set that is not mentioned. -/
structure Flags where
  verbose : Option Bool := none
  unicode : Option Bool := none
deriving DecidableEq, Repr

inductive Term where
  | empty (span : Span)
  | flags (span : Span) (flags : Flags)
  | literal (literal : Literal)
  | dot (span : Span)
  | edge (span : Span)
  | wordEdge (span : Span)
  | property (property : Property)
  | shorthand (shorthand : Shorthand)
  | bracketed (span : Span) (isNegated : Bool) (set : CharSet)
  /-- What is repeated zero times at most is void. -/
  | repetition (span : Span) (isVoid : Bool) (term : Term)
  | group (span : Span) (flags : Flags) (term : Term)
  | alternation (span : Span) (terms : List Term)
  | sequence (span : Span) (terms : List Term)

def CharSet.span : CharSet → Span
  | .empty span => span
  | .literal l => l.span
  | .range span _ _ => span
  | .named span _ => span
  | .property p => p.span
  | .shorthand s => s.span
  | .bracketed span _ _ => span
  | .union span _ => span
  | .operation span _ _ => span

def Term.span : Term → Span
  | .empty span => span
  | .flags span _ => span
  | .literal l => l.span
  | .dot span => span
  | .edge span => span
  | .wordEdge span => span
  | .property p => p.span
  | .shorthand s => s.span
  | .bracketed span _ _ => span
  | .repetition span _ _ => span
  | .group span _ _ => span
  | .alternation span _ => span
  | .sequence span _ => span

end LatticeKinetics.Pattern
