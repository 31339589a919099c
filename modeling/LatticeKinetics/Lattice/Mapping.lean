import LatticeKinetics.Lattice.Basic

/-! The sites of a lattice with known repeat counts are numbered from one: slots run fastest, then
the `x`, `y` and `z` axes. Cells outside the system stand for the cell they wrap around to. -/

namespace LatticeKinetics

structure Mapping where
  dimension : Nat
  sitesPerCell : Nat
  extents : Triple Nat
deriving DecidableEq, Repr

namespace Mapping

/-- Cell numbers are 32-bit words. -/
def maxExtent : Nat := 2147483647

/-- Site numbers are 64-bit words. -/
def volumeBound : Nat := 18446744073709551616

def checkExtent (dimension axis extent : Nat) : Except LatticeError Unit :=
  if extent = 0 then .error (.emptyAxis axis)
  else if dimension ≤ axis ∧ extent ≠ 1 then .error (.excessAxis axis extent dimension)
  else if maxExtent < extent then .error (.axisTooLarge axis extent maxExtent)
  else .ok ()

def checkExtents (dimension : Nat) : Nat → List Nat → Except LatticeError Unit
  | _, [] => .ok ()
  | axis, extent :: rest => do
    checkExtent dimension axis extent
    checkExtents dimension (axis + 1) rest

def cellCount (m : Mapping) : Nat :=
  m.extents.x * m.extents.y * m.extents.z

def volume (m : Mapping) : Nat :=
  m.sitesPerCell * m.cellCount

/-- Axes without a repeat count repeat once. -/
def ofExtents (dimension sitesPerCell : Nat) (extents : List Nat) :
    Except LatticeError Mapping := do
  checkCell dimension sitesPerCell
  match extents[3]? with
  | some extent => throw (.excessAxis 3 extent dimension)
  | none => checkExtents dimension 0 extents
  let m : Mapping := { dimension, sitesPerCell, extents := Triple.ofList 1 extents }
  if m.volume < volumeBound then pure m else throw .volumeOverflow

def wrap (m : Mapping) (cell : Cell) : Cell :=
  Triple.ofAxes fun axis => cell.get axis % (m.extents.get axis : Int)

def cellNumber (m : Mapping) (cell : Cell) : Nat :=
  let c := m.wrap cell
  c.x.toNat + m.extents.x * (c.y.toNat + m.extents.y * c.z.toNat)

def toIndex (m : Mapping) (site : LatticeSite) : Except LatticeError Nat :=
  if site.slot = 0 ∨ m.sitesPerCell < site.slot then
    .error (.slotOutOfRange site.slot m.sitesPerCell)
  else .ok (m.sitesPerCell * m.cellNumber site.cell + site.slot)

def cellAt (m : Mapping) (number : Nat) : Cell :=
  { x := (number % m.extents.x : Nat)
    y := (number / m.extents.x % m.extents.y : Nat)
    z := (number / (m.extents.x * m.extents.y) : Nat) }

def siteAt (m : Mapping) (index : Nat) : Except LatticeError LatticeSite :=
  if index = 0 ∨ m.volume < index then .error (.indexOutOfRange index m.volume)
  else .ok {
    cell := m.cellAt ((index - 1) / m.sitesPerCell)
    slot := (index - 1) % m.sitesPerCell + 1 }

def translate (m : Mapping) (site : LatticeSite) (offset : List Int) (slot : Nat) : LatticeSite :=
  { cell := m.wrap (site.cell.shift offset), slot }

def firstSites (m : Mapping) (limit : Nat) : List LatticeSite :=
  (List.range (min limit m.volume)).filterMap fun i => (m.siteAt (i + 1)).toOption

def ordering (m : Mapping) : List LatticeSite :=
  m.firstSites m.volume

end Mapping
end LatticeKinetics
