import LatticeKinetics.Model.Error

/-! A frame is a process with all its coordinates read from its anchor, in the cell frame of the
anchor's layer. From there the process can be looked at from any of its conditions. -/

namespace LatticeKinetics

structure Frame where
  number : Nat
  process : Process
  /-- Place of the anchor among the conditions. -/
  anchor : Nat
  conditions : List Placement
  actions : List Placement
deriving DecidableEq, Repr

namespace Frame

def framePlacements (origin : Coordinate) (table : ConversionTable) :
    List Placement → Except MissingConversion (List Placement)
  | [] => .ok []
  | p :: ps => do
    let coord ← p.coord.relativeTo origin table
    let rest ← framePlacements origin table ps
    pure ({ p with coord } :: rest)

def ofProcess (m : Model) (number : Nat) (p : Process) : Except ModelError Frame :=
  match p.conditions.findIdx? (·.coord.isAnchor), p.anchor? with
  | some anchor, some origin => do
    let conditions ←
      (framePlacements origin.coord m.conversions p.conditions).mapError .missingConversion
    let actions ←
      (framePlacements origin.coord m.conversions p.actions).mapError .missingConversion
    pure { number, process := p, anchor, conditions, actions }
  | _, _ => .error (.missingAnchor p.name)

def ofProcesses (m : Model) : List (Nat × Process) → Except ModelError (List Frame)
  | [] => .ok []
  | (number, p) :: rest => do
    let frame ← ofProcess m number p
    let frames ← ofProcesses m rest
    pure (frame :: frames)

def coordAt (f : Frame) (k : Nat) : Coordinate :=
  ((f.conditions[k]?).map (·.coord)).getD default

def anchorCoord (f : Frame) : Coordinate :=
  f.coordAt f.anchor

def anchorFrom (f : Frame) (k : Nat) : Coordinate :=
  (f.coordAt k).displacement f.anchorCoord

def conditionsFrom (f : Frame) (k : Nat) : List Placement :=
  f.conditions.map fun c => { c with coord := (f.coordAt k).displacement c.coord }

/-- The other conditions as seen from condition `k`. -/
def questionsFrom (f : Frame) (k : Nat) : List Placement :=
  (f.conditionsFrom k).eraseIdx k

def conditionAt? (f : Frame) (coord : Coordinate) : Option Placement :=
  f.conditions.find? (·.coord == coord)

end Frame

def Model.frames (m : Model) : Except ModelError (List Frame) :=
  Frame.ofProcesses m m.numberedProcesses

end LatticeKinetics
