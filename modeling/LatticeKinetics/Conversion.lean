import LatticeKinetics.Coordinate.Basic

/-! Layers have cell frames of their own. A conversion says by how many cells a position shifts when
it is read in another layer's frame, and the table holds both directions of every registered pair. A
pair that was never registered cannot be converted. -/

namespace LatticeKinetics

structure Conversion where
  source : String
  target : String
  shift : List Int
deriving DecidableEq, Repr, Inhabited

structure MissingConversion where
  source : String
  target : String
deriving DecidableEq, Repr

/-- Entries in the order in which their pairs were first registered. -/
structure ConversionTable where
  entries : List Conversion
deriving DecidableEq, Repr, Inhabited

namespace ConversionTable

def empty : ConversionTable :=
  ⟨[]⟩

def setEntry (new : Conversion) : List Conversion → List Conversion
  | [] => [new]
  | e :: es => if e.source = new.source ∧ e.target = new.target then new :: es
    else e :: setEntry new es

def lookup? (table : ConversionTable) (source target : String) : Option (List Int) :=
  (table.entries.find? fun e => e.source == source && e.target == target).map (·.shift)

def insert (table : ConversionTable) (source target : String) (shift : List Int) :
    ConversionTable :=
  ⟨setEntry ⟨source, target, shift⟩
    (setEntry ⟨target, source, shift.map (- ·)⟩ table.entries)⟩

/-- A layer has no shift to itself. -/
def shift (table : ConversionTable) (source target : String) :
    Except MissingConversion (List Int) :=
  if source = target then .ok [0, 0, 0]
  else
    match table.lookup? source target with
    | some s => .ok s
    | none => .error ⟨source, target⟩

def contains (table : ConversionTable) (source target : String) : Bool :=
  source == target || (table.lookup? source target).isSome

def sharedUnitCell (dimension : Nat) : List String → ConversionTable → ConversionTable
  | [], table => table
  | name :: names, table =>
    sharedUnitCell dimension names <|
      names.foldl (fun t other => t.insert name other (List.replicate dimension 0)) table

def complete (table other : ConversionTable) : ConversionTable :=
  other.entries.foldl
    (fun t e => if t.contains e.source e.target then t else t.insert e.source e.target e.shift)
    table

end ConversionTable

/-- The position of `target` as seen from `origin`, in the frame of `origin`'s layer. -/
def Coordinate.relativeTo (target origin : Coordinate) (table : ConversionTable) :
    Except MissingConversion Coordinate := do
  let shift ← table.shift target.layer origin.layer
  pure (target.withOffset
    (List.zipWith (· + ·) (List.zipWith (· - ·) target.offset origin.offset) shift))

end LatticeKinetics
