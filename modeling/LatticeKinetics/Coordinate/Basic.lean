/-! A coordinate names a site type and the unit cell it lies in, as an offset from some origin cell.
An offset has one component per axis of the lattice; axes it does not have read as zero.

Offsets are integers without a bound, so that displacing, converting and translating coordinates is
exact. Where components are kept in words of 32 bits, all that is said of them here holds as long as
no sum or difference leaves the word. -/

namespace LatticeKinetics

structure Coordinate where
  offset : List Int
  site : String
  layer : String
deriving DecidableEq, Repr, Inhabited

namespace Coordinate

def axis (c : Coordinate) (n : Nat) : Int :=
  c.offset.getD n 0

def isAnchor (c : Coordinate) : Bool :=
  c.offset.all (· == 0)

def render (c : Coordinate) : String :=
  s!"{c.site}.({c.axis 0}, {c.axis 1}, {c.axis 2}).{c.layer}"

def withOffset (c : Coordinate) (offset : List Int) : Coordinate :=
  { c with offset }

def atOrigin (c : Coordinate) : Coordinate :=
  c.withOffset (c.offset.map fun _ => 0)

/-- How `target` looks from `c` when both are given in one frame. -/
def displacement (c target : Coordinate) : Coordinate :=
  target.withOffset (List.zipWith (· - ·) target.offset c.offset)

end Coordinate

/-- A species at a coordinate: what a condition requires, an action leaves, a question asks for. -/
structure Placement where
  coord : Coordinate
  species : String
deriving DecidableEq, Repr, Inhabited

namespace Placement

def renderCondition (p : Placement) : String :=
  s!"{p.species}@{p.coord.render}"

def renderAction (p : Placement) : String :=
  s!"{p.coord.render}->{p.species}"

end Placement
end LatticeKinetics
