import LatticeKinetics.Event
import LatticeKinetics.Model.Check
import LatticeKinetics.Model.Fingerprint
import LatticeKinetics.Tree.Synthesis

/-! The plan of a kernel: which procedures it has and what each of them does. Check procedures test
whether a process is possible; update procedures change one site and bring the list of possible
processes up to date; touch-up procedures work that list out anew for one site; the dispatch says
which updates a process runs. -/

namespace LatticeKinetics

/-- A change to the list of possible processes, at a location seen from the site at hand. -/
inductive Effect where
  | enable (process : Nat) (location : Coordinate)
  | disable (process : Nat) (location : Coordinate)
deriving DecidableEq, Repr

namespace Effect

def process : Effect → Nat
  | enable process _ => process
  | disable process _ => process

def location : Effect → Coordinate
  | enable _ location => location
  | disable _ location => location

def isEnable : Effect → Bool
  | enable .. => true
  | disable .. => false

end Effect

structure SiteConstant where
  name : String
  layer : String
  site : String
  index : Nat
deriving DecidableEq, Repr

structure Check where
  name : String
  process : Nat
  /-- The condition it starts from, counted from one; the anchor's check has none. -/
  condition : Option Nat
  origin : Coordinate
  conditions : List Placement
deriving DecidableEq, Repr

structure Update where
  name : String
  event : Event
  before : String
  after : String
  tree : Tree Effect

structure Touchup where
  name : String
  layer : String
  site : String
  /-- The processes whose anchor is on this site type. -/
  removals : List Nat
  tree : Tree Effect

structure Step where
  direction : Direction
  species : String
  coord : Coordinate
deriving DecidableEq, Repr

namespace Step

def event (s : Step) : Event :=
  { direction := s.direction, species := s.species, layer := s.coord.layer, site := s.coord.site }

def procedure (s : Step) : String :=
  s.event.procedureName

end Step

structure Dispatch where
  process : Nat
  name : String
  anchor : Coordinate
  steps : List Step
deriving DecidableEq, Repr

structure Plan where
  fingerprint : UInt64
  formula : Formula
  sites : List SiteConstant
  checks : List Check
  updates : List Update
  touchups : List Touchup
  dispatch : List Dispatch

namespace Plan

def anchorCheck? (p : Plan) (process : Nat) : Option Check :=
  p.checks.find? fun c => c.process == process && c.condition.isNone

def update? (p : Plan) (event : Event) : Option Update :=
  p.updates.find? (·.event == event)

def touchup? (p : Plan) (layer site : String) : Option Touchup :=
  p.touchups.find? fun t => t.layer == layer && t.site == site

end Plan

namespace Frame

def anchorCheck (f : Frame) : Check :=
  { name := s!"check_{f.process.name}"
    process := f.number
    condition := none
    origin := f.anchorCoord
    conditions := f.conditionsFrom f.anchor }

def checkFrom (f : Frame) (k : Nat) : Check :=
  { name := s!"check_{f.process.name}_{k + 1}"
    process := f.number
    condition := some (k + 1)
    origin := (f.coordAt k).atOrigin
    conditions := f.conditionsFrom k }

def checks (f : Frame) : List Check :=
  f.anchorCheck ::
    ((List.range f.conditions.length).filter (· != f.anchor)).map f.checkFrom

/-- How an action turns what a site must hold into what it leaves there. A species is never replaced
in one step by another that is not the default. -/
def actionSteps (defaultSpecies : String) (action : Placement) (required : String) : List Step :=
  if action.species = required then []
  else if required = defaultSpecies then [⟨.put, action.species, action.coord⟩]
  else if action.species = defaultSpecies then [⟨.take, required, action.coord⟩]
  else [⟨.take, required, action.coord⟩, ⟨.put, action.species, action.coord⟩]

def steps (f : Frame) (defaultSpecies : String) :
    List Placement → Except ModelError (List Step)
  | [] => .ok []
  | action :: actions =>
    match f.conditionAt? action.coord with
    | none => .error (.unmatchedAction f.process.name action.coord)
    | some condition => do
      let rest ← f.steps defaultSpecies actions
      pure (actionSteps defaultSpecies action condition.species ++ rest)

def dispatch (f : Frame) (defaultSpecies : String) : Except ModelError Dispatch := do
  let steps ← f.steps defaultSpecies f.actions
  pure { process := f.number, name := f.process.name, anchor := f.anchorCoord, steps }

def anchorItem (f : Frame) : Item Effect :=
  { questions := f.conditionsFrom f.anchor, payload := .enable f.number f.anchorCoord }

def dispatches (defaultSpecies : String) : List Frame → Except ModelError (List Dispatch)
  | [] => .ok []
  | f :: fs => do
    let d ← f.dispatch defaultSpecies
    let ds ← dispatches defaultSpecies fs
    pure (d :: ds)

end Frame

namespace Classification

/-- Disabling needs no questions. -/
def items (c : Classification) : List (Item Effect) :=
  c.disables.map (fun d => { questions := [], payload := .disable d.process d.location }) ++
    c.enables.map fun e => { questions := e.questions, payload := .enable e.process e.location }

def update (c : Classification) (defaultSpecies : String) : Update :=
  { name := c.event.procedureName
    event := c.event
    before := c.event.before defaultSpecies
    after := c.event.after defaultSpecies
    tree := .synthesize c.items }

end Classification

namespace SiteConstant

def ofSite (s : SiteRef) : SiteConstant :=
  { name := Model.siteConstant s.layer s.site, layer := s.layer, site := s.site, index := s.index }

def anchored (s : SiteConstant) (frames : List Frame) : List Frame :=
  frames.filter fun f => f.anchorCoord.site == s.site && f.anchorCoord.layer == s.layer

def touchup (s : SiteConstant) (frames : List Frame) : Touchup :=
  { name := s!"touchup_{s.name}"
    layer := s.layer
    site := s.site
    removals := (s.anchored frames).map (·.number)
    tree := .synthesize ((s.anchored frames).map (·.anchorItem)) }

end SiteConstant

def Model.siteConstants (m : Model) : List SiteConstant :=
  m.sites.map .ofSite

end LatticeKinetics
