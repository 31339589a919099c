import LatticeKinetics.Lattice.Formula
import LatticeKinetics.Model.Check

/-! Expressions of the generated code. A site vector has the cell along the three axes as its first
three components and the index of its site type as the fourth. -/

namespace LatticeKinetics.Fortran

/-- Integer expressions. Multiplication and division associate to the left; nothing is put in
parentheses but what is marked so. -/
inductive IntExpr where
  | literal (value : Nat)
  | named (name : String)
  | component (array : String) (position : Nat)
  | add (left right : IntExpr)
  | subtract (left right : IntExpr)
  | multiply (left right : IntExpr)
  | divide (left right : IntExpr)
  | modulo (left right : IntExpr)
  | parens (inner : IntExpr)
deriving DecidableEq, Repr

namespace IntExpr

def render : IntExpr → String
  | literal value => toString value
  | named name => name
  | component array position => s!"{array}({position})"
  | add left right => s!"{left.render} + {right.render}"
  | subtract left right => s!"{left.render} - {right.render}"
  | multiply left right => s!"{left.render}*{right.render}"
  | divide left right => s!"{left.render}/{right.render}"
  | modulo left right => s!"modulo({left.render}, {right.render})"
  | parens inner => s!"({inner.render})"

/-- The value. A quotient is cut off towards zero; `modulo` is the remainder of floor division. -/
def eval (names : String → Int) (components : String → Nat → Int) : IntExpr → Int
  | literal value => value
  | named name => names name
  | component array position => components array position
  | add left right => left.eval names components + right.eval names components
  | subtract left right => left.eval names components - right.eval names components
  | multiply left right => left.eval names components * right.eval names components
  | divide left right =>
    (left.eval names components).tdiv (right.eval names components)
  | modulo left right =>
    (left.eval names components).fmod (right.eval names components)
  | parens inner => inner.eval names components

def chain (join : IntExpr → IntExpr → IntExpr) (first : IntExpr) (rest : List IntExpr) : IntExpr :=
  rest.foldl join first

def cellComponent (axis : Axis) : IntExpr :=
  component "site" (axis.number + 1)

def systemSize (axis : Axis) : IntExpr :=
  component "system_size" (axis.number + 1)

def spuck : IntExpr :=
  named "spuck"

def ofForwardTerm (term : ForwardTerm) : IntExpr :=
  let wrapped := modulo (cellComponent term.axis) (systemSize term.axis)
  match term.stride with
  | [] => wrapped
  | axis :: axes => multiply (chain multiply (systemSize axis) (axes.map systemSize)) wrapped

def forward (f : Formula) : IntExpr :=
  let cell := match f.forwardTerms.map ofForwardTerm with
    | [] => literal 0
    | term :: terms => chain add term terms
  add (multiply spuck (parens cell)) (component "site" 4)

def ofInverseTerm (term : InverseTerm) : IntExpr :=
  let cell := named "cell"
  let quotient := match term.divisor with
    | [] => cell
    | [axis] => divide cell (systemSize axis)
    | axis :: axes => divide cell (parens (chain multiply (systemSize axis) (axes.map systemSize)))
  match term.modulus with
  | some axis => modulo quotient (systemSize axis)
  | none => quotient

def cellOfIndex : IntExpr :=
  divide (parens (subtract (named "n") (literal 1))) spuck

def slotOfIndex : IntExpr :=
  add (modulo (subtract (named "n") (literal 1)) spuck) (literal 1)

end IntExpr

structure Assignment where
  position : Nat
  value : IntExpr
deriving DecidableEq, Repr

/-- The cell of a site, axis by axis; axes the lattice lacks are zero. -/
def inverseAssignments (f : Formula) : List Assignment :=
  f.inverseTerms.map (fun term => ⟨term.axis.number + 1, .ofInverseTerm term⟩) ++
    (Axis.all.drop f.dimension).map fun axis => ⟨axis.number + 1, .literal 0⟩

inductive SlotShift where
  | same
  | between (target origin : String)
deriving DecidableEq, Repr

def SlotShift.render : SlotShift → String
  | .same => "0"
  | .between target origin => s!"{target} - {origin}"

inductive SiteExpr where
  | here
  | shifted (x y z : Int) (slot : SlotShift)
deriving DecidableEq, Repr

namespace SiteExpr

/-- The site `coord` seen from a site whose type is the constant `origin`. -/
def ofCoordinate (coord : Coordinate) (origin : String) : SiteExpr :=
  let target := Model.siteConstant coord.layer coord.site
  if coord.isAnchor ∧ target = origin then here
  else shifted (coord.axis 0) (coord.axis 1) (coord.axis 2)
    (if target = origin then .same else .between target origin)

def render (argument : String) : SiteExpr → String
  | here => argument
  | shifted x y z slot => s!"{argument} + (/{x}, {y}, {z}, {slot.render}/)"

end SiteExpr

/-- A character literal; quotes inside are doubled. -/
def quote (text : String) : String :=
  "\"" ++ String.ofList (text.toList.flatMap fun c => if c = '"' then ['"', '"'] else [c]) ++ "\""

end LatticeKinetics.Fortran
