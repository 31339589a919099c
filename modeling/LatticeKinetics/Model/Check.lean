import LatticeKinetics.Model.Error
import LatticeKinetics.Text.Character

/-! The rules a model must obey before it can be compiled. The checks run in a fixed order and the
first one that fails is reported. -/

namespace LatticeKinetics.Model

open Text

/-- Reserve a name. All names of a model share one space in which case does not count. -/
def claim (kind : NameKind) (taken : List String) (name : String) :
    Except ModelError (List String) :=
  if !isIdentifier name then .error (.invalidIdentifier kind name)
  else if foldCase name ∈ taken then .error (.duplicateName kind name)
  else .ok (foldCase name :: taken)

def claimAll (kind : NameKind) : List String → List String → Except ModelError (List String)
  | taken, [] => .ok taken
  | taken, name :: names => do
    let taken ← claim kind taken name
    claimAll kind taken names

def siteConstant (layer site : String) : String :=
  s!"{layer}_{site}"

def claimSites (layer : String) :
    List String → List String → List String → Except ModelError (List String)
  | _, taken, [] => .ok taken
  | seen, taken, site :: sites =>
    if site ∈ seen then .error (.duplicateSite layer site)
    else do
      let taken ← claim .site taken (siteConstant layer site)
      claimSites layer (site :: seen) taken sites

def claimLayers : List String → List Layer → Except ModelError (List String)
  | taken, [] => .ok taken
  | taken, l :: ls => do
    let taken ← claim .layer taken l.name
    if l.sites.isEmpty then throw (.emptyLayer l.name)
    let taken ← claimSites l.name [] taken l.siteNames
    claimLayers taken ls

def checkNames (m : Model) : Except ModelError Unit := do
  let taken ← claimAll .species [] m.species
  let taken ← claimLayers taken m.layers
  let _ ← claimAll .process taken (m.processes.map (·.name))
  pure ()

def checkOffset (m : Model) (usage : Usage) (offset : List Int) : Except ModelError Unit :=
  if offset.length = m.dimension then .ok ()
  else .error (.offsetDimension usage m.dimension offset.length)

def checkLayer (m : Model) (usage : Usage) (layer : String) : Except ModelError Unit :=
  if (m.layer? layer).isSome then .ok () else .error (.unknownLayer usage layer)

def checkConversion (m : Model) (c : Conversion) : Except ModelError Unit := do
  let usage := Usage.conversion c.source c.target
  m.checkLayer usage c.source
  m.checkLayer usage c.target
  m.checkOffset usage c.shift

def checkCoordinate (m : Model) (usage : Usage) (coord : Coordinate) : Except ModelError Unit := do
  m.checkOffset usage coord.offset
  match m.layer? coord.layer with
  | none => throw (.unknownLayer usage coord.layer)
  | some l =>
    if l.hasSite coord.site then pure ()
    else throw (.unknownSite usage coord.layer coord.site)

def checkPlacement (m : Model) (process : String) (p : Placement) : Except ModelError Unit := do
  m.checkCoordinate (.process process) p.coord
  let _ ← m.requireSpecies process p.species
  pure ()

def checkConditions (m : Model) (process : String) :
    List Coordinate → List Placement → Except ModelError Unit
  | _, [] => .ok ()
  | seen, c :: cs => do
    m.checkPlacement process c
    if c.coord ∈ seen then throw (.duplicateCondition process c.coord)
    m.checkConditions process (c.coord :: seen) cs

/-- Every action changes a site that some condition speaks of, and no site twice. -/
def checkActions (m : Model) (p : Process) :
    List Coordinate → List Placement → Except ModelError Unit
  | _, [] => .ok ()
  | seen, a :: rest => do
    m.checkPlacement p.name a
    if (p.conditionAt? a.coord).isNone then throw (.unmatchedAction p.name a.coord)
    if a.coord ∈ seen then throw (.duplicateAction p.name a.coord)
    m.checkActions p (a.coord :: seen) rest

/-- Every condition can be read in the frame of the anchor's layer. -/
def checkReach (m : Model) (anchorLayer : String) : List Placement → Except ModelError Unit
  | [] => .ok ()
  | c :: cs =>
    if m.conversions.contains c.coord.layer anchorLayer then m.checkReach anchorLayer cs
    else .error (.missingConversion ⟨c.coord.layer, anchorLayer⟩)

def checkProcess (m : Model) (p : Process) : Except ModelError Unit := do
  m.checkConditions p.name [] p.conditions
  match p.anchor? with
  | none => throw (.missingAnchor p.name)
  | some anchor =>
    m.checkActions p [] p.actions
    m.checkReach anchor.coord.layer p.conditions

def checkEach {α : Type} (check : α → Except ModelError Unit) : List α → Except ModelError Unit
  | [] => .ok ()
  | a :: rest => do
    check a
    checkEach check rest

def check (m : Model) : Except ModelError Unit := do
  if m.dimension = 0 ∨ 3 < m.dimension then throw (.invalidDimension m.dimension)
  if m.species.isEmpty then throw .noSpecies
  if m.layers.isEmpty then throw .noLayers
  m.checkNames
  checkEach m.checkConversion m.conversions.entries
  checkEach m.checkProcess m.processes

end LatticeKinetics.Model
