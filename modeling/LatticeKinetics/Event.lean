import LatticeKinetics.Frame

/-! An event puts a species on an empty site or takes it off. It enables the processes that require
what the site now holds and disables those that require what it held before, wherever their anchor
lies as seen from the site. -/

namespace LatticeKinetics

inductive Direction where
  | put
  | take
deriving DecidableEq, Repr

def Direction.render : Direction → String
  | .put => "put"
  | .take => "take"

structure Event where
  direction : Direction
  species : String
  layer : String
  site : String
deriving DecidableEq, Repr

namespace Event

def procedureName (e : Event) : String :=
  s!"{e.direction.render}_{e.species}_{e.layer}_{e.site}"

def render (e : Event) : String :=
  s!"{e.direction.render} {e.species} on {e.layer}.{e.site}"

def before (e : Event) (defaultSpecies : String) : String :=
  match e.direction with
  | .put => defaultSpecies
  | .take => e.species

def after (e : Event) (defaultSpecies : String) : String :=
  match e.direction with
  | .put => e.species
  | .take => defaultSpecies

def touches (e : Event) (coord : Coordinate) : Bool :=
  coord.site == e.site && coord.layer == e.layer

end Event

/-- A process that the event makes possible, if the questions around the site turn out well. -/
structure Enabling where
  process : Nat
  trigger : Nat
  location : Coordinate
  questions : List Placement
deriving DecidableEq, Repr

structure Disabling where
  process : Nat
  trigger : Nat
  location : Coordinate
deriving DecidableEq, Repr

structure Classification where
  event : Event
  enables : List Enabling
  disables : List Disabling
deriving DecidableEq, Repr

namespace Classification

def isEmpty (c : Classification) : Bool :=
  c.enables.isEmpty && c.disables.isEmpty

structure Occurrence where
  frame : Frame
  place : Nat
  condition : Placement

def occurrences (frames : List Frame) : List Occurrence :=
  frames.flatMap fun frame =>
    frame.conditions.zipIdx.map fun (condition, place) => { frame, place, condition }

def touched (frames : List Frame) (e : Event) : List Occurrence :=
  (occurrences frames).filter fun o => e.touches o.condition.coord

/-- A condition that requires what the site holds before the event and after it as well. -/
def ambiguous? (defaultSpecies : String) (e : Event) (os : List Occurrence) :
    Option Occurrence :=
  os.find? fun o =>
    o.condition.species == e.after defaultSpecies && o.condition.species == e.before defaultSpecies

def enabling (o : Occurrence) : Enabling :=
  { process := o.frame.number
    trigger := o.place
    location := o.frame.anchorFrom o.place
    questions := o.frame.questionsFrom o.place }

def disabling (o : Occurrence) : Disabling :=
  { process := o.frame.number
    trigger := o.place
    location := o.frame.anchorFrom o.place }

def Occurrence.declared (o : Occurrence) : Placement :=
  (o.frame.process.conditions[o.place]?).getD o.condition

def ofEvent (m : Model) (frames : List Frame) (e : Event) : Except ModelError Classification := do
  let _ ← m.siteIndex e.layer e.site
  let _ ← m.requireSpecies "" e.species
  let os := touched frames e
  match ambiguous? m.defaultSpecies e os with
  | some o => throw (.ambiguousEmptySpecies o.frame.process.name o.declared e.species)
  | none =>
    pure {
      event := e
      enables := (os.filter (·.condition.species == e.after m.defaultSpecies)).map enabling
      disables := (os.filter (·.condition.species == e.before m.defaultSpecies)).map disabling }

def ofEvents (m : Model) (frames : List Frame) :
    List Event → Except ModelError (List Classification)
  | [] => .ok []
  | e :: es => do
    let c ← ofEvent m frames e
    let cs ← ofEvents m frames es
    pure (c :: cs)

end Classification

def Model.events (m : Model) : List Event :=
  (m.species.filter fun s => !m.isDefault s).flatMap fun species =>
    m.sites.flatMap fun s =>
      [.put, .take].map fun direction => { direction, species, layer := s.layer, site := s.site }

def Model.classifyWith (m : Model) (frames : List Frame) :
    Except ModelError (List Classification) :=
  Classification.ofEvents m frames m.events

def Model.classify (m : Model) : Except ModelError (List Classification) := do
  m.classifyWith (← m.frames)

end LatticeKinetics
