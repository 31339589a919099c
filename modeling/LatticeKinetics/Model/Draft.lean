import LatticeKinetics.Model.Check

/-! A draft collects the declarations of a model. Building it fills in what was left open and checks
the result, so every built model is valid. -/

namespace LatticeKinetics

structure Draft where
  dimension : Nat
  species : List String := []
  defaultSpecies : Option String := none
  layers : List Layer := []
  conversions : ConversionTable := .empty
  /-- All layers have one cell frame, unless a conversion says otherwise. -/
  sharedUnitCell : Bool := false
  processes : List Process := []

namespace Draft

def firstRepeat? : List String → List String → Option String
  | _, [] => none
  | seen, name :: names =>
    if name ∈ seen then some name else firstRepeat? (name :: seen) names

def pickDefault (d : Draft) : Except ModelError String :=
  match d.species with
  | [] => .error .noSpecies
  | first :: _ =>
    let name := d.defaultSpecies.getD first
    if name ∈ d.species then .ok name else .error (.unknownDefaultSpecies name)

def finalConversions (d : Draft) : ConversionTable :=
  if d.sharedUnitCell then
    d.conversions.complete
      (ConversionTable.sharedUnitCell d.dimension (d.layers.map (·.name)) .empty)
  else d.conversions

def assemble (d : Draft) : Except ModelError Model := do
  match firstRepeat? [] d.species with
  | some name => throw (.duplicateName .species name)
  | none => pure ()
  let defaultSpecies ← d.pickDefault
  pure {
    dimension := d.dimension
    species := d.species
    defaultSpecies
    layers := d.layers
    conversions := d.finalConversions
    processes := d.processes }

def build (d : Draft) : Except ModelError Model := do
  let m ← d.assemble
  m.check
  pure m

end Draft
end LatticeKinetics
