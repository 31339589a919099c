import LatticeKinetics.Plan.Compile

/-! A kernel runs a plan on a lattice of known size. Its state holds a species for every site and
the list of the processes that are possible, each with the site of its anchor. -/

namespace LatticeKinetics

/-- A process at the site of its anchor, both by number. -/
abbrev Registration :=
  Nat × Nat

structure Kernel where
  model : Model
  plan : Plan
  mapping : Mapping

structure KernelState where
  /-- The species of sites 1, 2, … -/
  occupation : List String
  listed : List Registration
deriving DecidableEq, Repr

inductive KernelFault where
  | lattice (cause : LatticeError)
  | model (cause : ModelError)
  | noSiteType (slot : Nat)
  | noTouchup (layer site : String)
  | noUpdate (event : Event)
  | noProcess (process : Nat)
  | wrongSpecies (procedure found : String)
  | listedTwice (registration : Registration)
deriving DecidableEq, Repr

namespace KernelState

def species? (s : KernelState) (index : Nat) : Option String :=
  if index = 0 then none else s.occupation[index - 1]?

def canDo (s : KernelState) (process index : Nat) : Bool :=
  s.listed.contains (process, index)

def remove (s : KernelState) (r : Registration) : KernelState :=
  { s with listed := s.listed.filter (· ≠ r) }

def add (s : KernelState) (r : Registration) : Except KernelFault KernelState :=
  if s.listed.contains r then .error (.listedTwice r)
  else .ok { s with listed := s.listed ++ [r] }

end KernelState

def Registration.before (a b : Registration) : Bool :=
  a.1 < b.1 || (a.1 == b.1 && a.2 ≤ b.2)

def Registration.sort (rs : List Registration) : List Registration :=
  rs.mergeSort Registration.before

def KernelState.available (s : KernelState) : List Registration :=
  Registration.sort s.listed

namespace Kernel

def ofExtents (m : Model) (p : Plan) (extents : List Nat) : Except LatticeError Kernel := do
  let mapping ← m.mapping extents
  pure { model := m, plan := p, mapping }

def start (k : Kernel) : KernelState :=
  { occupation := List.replicate k.mapping.volume k.model.defaultSpecies, listed := [] }

def sites (k : Kernel) : List Nat :=
  List.range' 1 k.mapping.volume

def speciesAt (s : KernelState) (index : Nat) : Except KernelFault String :=
  match s.species? index with
  | some species => .ok species
  | none => .error (.lattice (.indexOutOfRange index s.occupation.length))

def setSpecies (index : Nat) (species : String) (s : KernelState) :
    Except KernelFault KernelState := do
  let _ ← speciesAt s index
  pure { s with occupation := s.occupation.set (index - 1) species }

/-- The number of the site at `coord` seen from site `origin`. -/
def resolve (k : Kernel) (origin : Nat) (coord : Coordinate) : Except KernelFault Nat := do
  let site ← (k.mapping.siteAt origin).mapError .lattice
  let slot ← (k.model.coordIndex coord).mapError .model
  (k.mapping.toIndex (k.mapping.translate site coord.offset slot)).mapError .lattice

def look (k : Kernel) (s : KernelState) (origin : Nat) (coord : Coordinate) :
    Except KernelFault String := do
  speciesAt s (← k.resolve origin coord)

/-- The same where it is known that there is a species; the empty name stands for none. -/
def occupant (k : Kernel) (s : KernelState) (origin : Nat) (coord : Coordinate) : String :=
  (k.look s origin coord).toOption.getD ""

def siteType (k : Kernel) (index : Nat) : Except KernelFault SiteConstant := do
  let site ← (k.mapping.siteAt index).mapError .lattice
  match k.plan.sites[site.slot - 1]? with
  | some constant => pure constant
  | none => throw (.noSiteType site.slot)

def apply (k : Kernel) (origin : Nat) (e : Effect) (s : KernelState) :
    Except KernelFault KernelState := do
  let place ← k.resolve origin e.location
  match e with
  | .enable process _ => s.add (process, place)
  | .disable process _ => pure (s.remove (process, place))

def applyAll (k : Kernel) (origin : Nat) : List Effect → KernelState →
    Except KernelFault KernelState
  | [], s => .ok s
  | e :: es, s => do
    let s ← k.apply origin e s
    k.applyAll origin es s

/-- The effects that a tree fires around a site; every coordinate it asks about must exist. -/
def effectsOf (k : Kernel) (s : KernelState) (origin : Nat) (t : Tree Effect) :
    Except KernelFault (List Effect) := do
  let occupant := k.occupant s origin
  let _ ← (t.asked occupant).mapM (k.look s origin)
  pure (t.fired occupant)

def touchup (k : Kernel) (index : Nat) (s : KernelState) : Except KernelFault KernelState := do
  let type ← k.siteType index
  match k.plan.touchup? type.layer type.site with
  | none => throw (.noTouchup type.layer type.site)
  | some t =>
    let s := t.removals.foldl (fun s process => s.remove (process, index)) s
    let effects ← k.effectsOf s index t.tree
    k.applyAll index effects s

def touchupEach (k : Kernel) : List Nat → KernelState → Except KernelFault KernelState
  | [], s => .ok s
  | index :: rest, s => do
    let s ← k.touchup index s
    k.touchupEach rest s

def touchupAll (k : Kernel) (s : KernelState) : Except KernelFault KernelState :=
  k.touchupEach k.sites s

def reset (k : Kernel) : Except KernelFault KernelState :=
  k.touchupAll k.start

/-- Put a species on an empty site or take it off, and bring the list up to date. -/
def update (k : Kernel) (direction : Direction) (species : String) (index : Nat)
    (s : KernelState) : Except KernelFault KernelState := do
  let type ← k.siteType index
  let event : Event := { direction, species, layer := type.layer, site := type.site }
  match k.plan.update? event with
  | none => throw (.noUpdate event)
  | some u =>
    let found ← speciesAt s index
    if found ≠ u.before then throw (.wrongSpecies u.name found)
    let s ← setSpecies index u.after s
    let effects ← k.effectsOf s index u.tree
    k.applyAll index effects s

def runSteps (k : Kernel) (origin : Nat) : List Step → KernelState →
    Except KernelFault KernelState
  | [], s => .ok s
  | step :: steps, s => do
    let target ← k.resolve origin step.coord
    let s ← k.update step.direction step.species target s
    k.runSteps origin steps s

def run (k : Kernel) (process index : Nat) (s : KernelState) : Except KernelFault KernelState :=
  match if process = 0 then none else k.plan.dispatch[process - 1]? with
  | none => .error (.noProcess process)
  | some d => k.runSteps index d.steps s

def holds (k : Kernel) (s : KernelState) (index : Nat) (c : Check) : Bool :=
  c.conditions.all fun p => k.occupant s index p.coord == p.species

def checksOn (k : Kernel) (type : SiteConstant) : List Check :=
  k.model.numberedProcesses.filterMap fun (number, _) =>
    (k.plan.anchorCheck? number).filter fun c =>
      c.origin.layer == type.layer && c.origin.site == type.site

def possibleAt (k : Kernel) (s : KernelState) (index : Nat) : List Registration :=
  match k.siteType index with
  | .error _ => []
  | .ok type => ((k.checksOn type).filter (k.holds s index)).map fun c => (c.process, index)

/-- What the list should hold, worked out from the checks alone. -/
def possible (k : Kernel) (s : KernelState) : List Registration :=
  Registration.sort (k.sites.flatMap (k.possibleAt s))

def choose? (s : KernelState) (choice : Nat) : Option Registration :=
  s.available[choice % s.available.length]?

end Kernel
end LatticeKinetics
