/-! A lattice repeats its unit cell periodically along up to three axes. Cells are counted from zero
along each axis; the site types of a cell fill its slots, counted from one. -/

namespace LatticeKinetics

inductive Axis where
  | x
  | y
  | z
deriving DecidableEq, Repr, Inhabited

namespace Axis

def all : List Axis :=
  [x, y, z]

def active (dimension : Nat) : List Axis :=
  all.take dimension

def number : Axis → Nat
  | x => 0
  | y => 1
  | z => 2

def render : Axis → String
  | x => "x"
  | y => "y"
  | z => "z"

end Axis

structure Triple (α : Type) where
  x : α
  y : α
  z : α
deriving DecidableEq, Repr, Inhabited

namespace Triple

variable {α β : Type}

def get (t : Triple α) : Axis → α
  | .x => t.x
  | .y => t.y
  | .z => t.z

def ofAxes (f : Axis → α) : Triple α :=
  ⟨f .x, f .y, f .z⟩

def toList (t : Triple α) : List α :=
  [t.x, t.y, t.z]

def ofList (fill : α) (values : List α) : Triple α :=
  ofAxes fun axis => values.getD axis.number fill

@[simp] theorem get_ofAxes (f : Axis → α) (axis : Axis) : (ofAxes f).get axis = f axis := by
  cases axis <;> rfl

end Triple

abbrev Cell :=
  Triple Int

/-- Go on by an offset; axes it lacks stay. -/
def Cell.shift (cell : Cell) (offset : List Int) : Cell :=
  Triple.ofAxes fun axis => cell.get axis + offset.getD axis.number 0

structure LatticeSite where
  cell : Cell
  slot : Nat
deriving DecidableEq, Repr, Inhabited

inductive LatticeError where
  | invalidDimension (dimension : Nat)
  | noSites
  | emptyAxis (axis : Nat)
  | excessAxis (axis extent dimension : Nat)
  | axisTooLarge (axis extent limit : Nat)
  | volumeOverflow
  | indexOutOfRange (index volume : Nat)
  | slotOutOfRange (slot sitesPerCell : Nat)
deriving DecidableEq, Repr

def LatticeError.message : LatticeError → String
  | .invalidDimension dimension => s!"lattice dimension must be 1, 2 or 3, got {dimension}"
  | .noSites => "sites-per-unit-cell constant must be at least 1"
  | .emptyAxis axis => s!"repeat count on axis {axis} must be at least 1"
  | .excessAxis axis extent dimension =>
    s!"axis {axis} is unused in a {dimension}D lattice, its repeat count must be 1, got {extent}"
  | .axisTooLarge axis extent limit => s!"repeat count {extent} on axis {axis} exceeds {limit}"
  | .volumeOverflow => "total site count overflows u64"
  | .indexOutOfRange index volume => s!"linear index {index} out of range [1, {volume}]"
  | .slotOutOfRange slot sitesPerCell => s!"site index {slot} out of range [1, {sitesPerCell}]"

def checkCell (dimension sitesPerCell : Nat) : Except LatticeError Unit :=
  if dimension = 0 ∨ 3 < dimension then .error (.invalidDimension dimension)
  else if sitesPerCell = 0 then .error .noSites
  else .ok ()

end LatticeKinetics
