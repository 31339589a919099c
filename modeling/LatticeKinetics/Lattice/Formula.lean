import LatticeKinetics.Lattice.Basic

/-! The numbering of sites kept open in the repeat counts, which only the running kernel knows. The
formula lists, for each axis of the lattice, the factors of its stride and the steps that recover
its cell number from a site number. -/

namespace LatticeKinetics

/-- The cell number along `axis` counts `stride` cells each. -/
structure ForwardTerm where
  axis : Axis
  stride : List Axis
deriving DecidableEq, Repr

/-- Divide by the product of `divisor`, then reduce modulo `modulus` if there is one. -/
structure InverseTerm where
  axis : Axis
  divisor : List Axis
  modulus : Option Axis
deriving DecidableEq, Repr

/-- Missing and empty repeat counts stand for one. -/
def extentOf (extents : List Nat) (axis : Axis) : Nat :=
  max 1 (extents.getD axis.number 1)

def ForwardTerm.value (extents : List Nat) (cell : Cell) (term : ForwardTerm) : Nat :=
  term.stride.foldl (fun acc axis => acc * extentOf extents axis)
    (cell.get term.axis % (extentOf extents term.axis : Int)).toNat

def InverseTerm.value (extents : List Nat) (cellNumber : Nat) (term : InverseTerm) : Nat :=
  let quotient := cellNumber / term.divisor.foldr (fun axis n => extentOf extents axis * n) 1
  match term.modulus with
  | some axis => quotient % extentOf extents axis
  | none => quotient

def lowWord (n : Nat) : Int :=
  Int.bmod n 4294967296

structure Formula where
  dimension : Nat
  sitesPerCell : Nat
deriving DecidableEq, Repr

namespace Formula

def ofCell (dimension sitesPerCell : Nat) : Except LatticeError Formula := do
  checkCell dimension sitesPerCell
  pure { dimension, sitesPerCell }

def axes (f : Formula) : List Axis :=
  Axis.active f.dimension

def forwardTerms (f : Formula) : List ForwardTerm :=
  f.axes.zipIdx.map fun (axis, i) => { axis, stride := f.axes.take i }

/-- The outermost axis needs no modulus: nothing lies beyond it. -/
def inverseTerms (f : Formula) : List InverseTerm :=
  f.axes.zipIdx.map fun (axis, i) =>
    { axis, divisor := f.axes.take i
      modulus := if i + 1 < f.axes.length then some axis else none }

def forwardCell (f : Formula) (extents : List Nat) (cell : Cell) : Nat :=
  (f.forwardTerms.map (·.value extents cell)).foldl (· + ·) 0

def forward (f : Formula) (extents : List Nat) (cell : Cell) (slot : Nat) : Nat :=
  f.sitesPerCell * f.forwardCell extents cell + slot

def inverse (f : Formula) (extents : List Nat) (index : Nat) : LatticeSite :=
  let number := (index - 1) / f.sitesPerCell
  { cell := Triple.ofAxes fun axis =>
      match f.inverseTerms.find? (·.axis == axis) with
      | some term => lowWord (term.value extents number)
      | none => 0
    slot := (index - 1) % f.sitesPerCell + 1 }

end Formula
end LatticeKinetics
