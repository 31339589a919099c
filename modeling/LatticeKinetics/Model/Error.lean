import LatticeKinetics.Model.Basic

/-! Why a model is refused, and what is odd about a model that is not. -/

namespace LatticeKinetics

inductive NameKind where
  | species
  | layer
  | site
  | process
deriving DecidableEq, Repr

def NameKind.render : NameKind → String
  | .species => "species"
  | .layer => "layer"
  | .site => "site"
  | .process => "process"

inductive Usage where
  | conversion (source target : String)
  | process (name : String)
  | siteLookup
deriving DecidableEq, Repr

def Usage.render : Usage → String
  | .conversion source target => s!"conversion '{source}' -> '{target}'"
  | .process name => s!"process '{name}'"
  | .siteLookup => "site lookup"

inductive ModelError where
  | invalidDimension (dimension : Nat)
  | noSpecies
  | noLayers
  | emptyLayer (layer : String)
  | unknownDefaultSpecies (name : String)
  | duplicateName (kind : NameKind) (name : String)
  | duplicateSite (layer site : String)
  | invalidIdentifier (kind : NameKind) (name : String)
  | unknownSpecies (process species : String)
  | unknownLayer (usage : Usage) (layer : String)
  | unknownSite (usage : Usage) (layer site : String)
  | offsetDimension (usage : Usage) (expected found : Nat)
  | missingAnchor (process : String)
  | unmatchedAction (process : String) (coord : Coordinate)
  | duplicateCondition (process : String) (coord : Coordinate)
  | duplicateAction (process : String) (coord : Coordinate)
  | missingConversion (pair : MissingConversion)
  | ambiguousEmptySpecies (process : String) (condition : Placement) (species : String)
deriving DecidableEq, Repr

def ModelError.message : ModelError → String
  | .invalidDimension dimension => s!"model dimension must be 1, 2 or 3, got {dimension}"
  | .noSpecies => "model declares no species"
  | .noLayers => "model declares no layers"
  | .emptyLayer layer => s!"layer '{layer}' declares no site types"
  | .unknownDefaultSpecies name => s!"default species '{name}' is not declared"
  | .duplicateName kind name => s!"duplicate {kind.render} name '{name}'"
  | .duplicateSite layer site => s!"duplicate site type '{site}' in layer '{layer}'"
  | .invalidIdentifier kind name =>
    s!"{kind.render} name '{name}' is not a valid identifier ([A-Za-z][A-Za-z0-9_]*)"
  | .unknownSpecies process species => s!"process '{process}': unknown species '{species}'"
  | .unknownLayer usage layer => s!"{usage.render}: unknown layer '{layer}'"
  | .unknownSite usage layer site =>
    s!"{usage.render}: unknown site type '{site}' in layer '{layer}'"
  | .offsetDimension usage expected found =>
    s!"{usage.render}: offset has {found} components, model dimension is {expected}"
  | .missingAnchor process =>
    s!"process '{process}' has no anchor condition (a condition with zero offset)"
  | .unmatchedAction process coord =>
    s!"process '{process}': action at {coord.render} has no matching condition"
  | .duplicateCondition process coord =>
    s!"process '{process}': more than one condition at {coord.render}"
  | .duplicateAction process coord =>
    s!"process '{process}': more than one action at {coord.render}"
  | .missingConversion pair =>
    s!"no lattice conversion registered from layer '{pair.source}' to layer '{pair.target}'"
  | .ambiguousEmptySpecies process condition species =>
    s!"process '{process}': condition {condition.renderCondition} cannot be classified for " ++
      s!"species '{species}': it is both the event species and the default species"

inductive ModelWarning where
  | idleProcess (process : String)
  | unusedSpecies (species : String)
deriving DecidableEq, Repr

def ModelWarning.message : ModelWarning → String
  | .idleProcess _ => "process has no actions and can never change the lattice"
  | .unusedSpecies _ => "species is not referenced by any process"

namespace Model

/-- Sites of the layers before add up to the index of a layer's first site. -/
def findSite (layer site : String) : Nat → List Layer → Except ModelError Nat
  | _, [] => .error (.unknownLayer .siteLookup layer)
  | before, l :: ls =>
    if l.name = layer then
      match l.sitePosition? site with
      | some position => .ok (before + position + 1)
      | none => .error (.unknownSite .siteLookup layer site)
    else findSite layer site (before + l.sites.length) ls

def siteIndex (m : Model) (layer site : String) : Except ModelError Nat :=
  findSite layer site 0 m.layers

def coordIndex (m : Model) (coord : Coordinate) : Except ModelError Nat :=
  m.siteIndex coord.layer coord.site

def requireSpecies (m : Model) (process name : String) : Except ModelError Nat :=
  match m.speciesNumber? name with
  | some number => .ok number
  | none => .error (.unknownSpecies process name)

def warnings (m : Model) : List ModelWarning :=
  (m.processes.filter (·.actions.isEmpty)).map (fun p => .idleProcess p.name) ++
    (m.species.filter fun s => !m.isDefault s && !m.processes.any (·.mentions s)).map
      .unusedSpecies

end Model
end LatticeKinetics
