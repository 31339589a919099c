import LatticeKinetics.Conversion
import LatticeKinetics.Lattice.Formula
import LatticeKinetics.Lattice.Mapping

/-! A model lists the species that can sit on lattice sites, the layers with their site types, and
the elementary processes. Layers, species and processes keep the order in which they are declared.
-/

namespace LatticeKinetics

structure SiteType where
  name : String
  position : Triple Float := ⟨0, 0, 0⟩

structure Layer where
  name : String
  cellSize : Triple Float := ⟨1, 1, 1⟩
  sites : List SiteType

namespace Layer

def siteNames (l : Layer) : List String :=
  l.sites.map (·.name)

def hasSite (l : Layer) (site : String) : Bool :=
  l.sites.any (·.name == site)

def sitePosition? (l : Layer) (site : String) : Option Nat :=
  l.sites.findIdx? (·.name == site)

end Layer

structure Process where
  name : String
  rateConstant : String
  conditions : List Placement
  actions : List Placement
deriving DecidableEq, Repr

namespace Process

/-- The first condition in the origin cell: the process happens at its site. -/
def anchor? (p : Process) : Option Placement :=
  p.conditions.find? (·.coord.isAnchor)

def conditionAt? (p : Process) (coord : Coordinate) : Option Placement :=
  p.conditions.find? (·.coord == coord)

def mentions (p : Process) (species : String) : Bool :=
  p.conditions.any (·.species == species) || p.actions.any (·.species == species)

end Process

structure Model where
  dimension : Nat
  species : List String
  defaultSpecies : String
  layers : List Layer
  conversions : ConversionTable
  processes : List Process

/-- A site type with its layer and its place in the unit cell, counted from one over all layers. -/
structure SiteRef where
  layer : String
  site : String
  index : Nat
deriving DecidableEq, Repr

namespace Model

def isDefault (m : Model) (name : String) : Bool :=
  m.defaultSpecies == name

def layer? (m : Model) (name : String) : Option Layer :=
  m.layers.find? (·.name == name)

def speciesNumber? (m : Model) (name : String) : Option Nat :=
  m.species.findIdx? (· == name)

def process? (m : Model) (number : Nat) : Option Process :=
  if number = 0 then none else m.processes[number - 1]?

def numberedProcesses (m : Model) : List (Nat × Process) :=
  m.processes.zipIdx.map fun (p, i) => (i + 1, p)

def sitesPerCell (m : Model) : Nat :=
  (m.layers.flatMap (·.sites)).length

def mapping (m : Model) (extents : List Nat) : Except LatticeError Mapping :=
  Mapping.ofExtents m.dimension m.sitesPerCell extents

def formula (m : Model) : Except LatticeError Formula :=
  Formula.ofCell m.dimension m.sitesPerCell

def sites (m : Model) : List SiteRef :=
  (m.layers.flatMap fun l => l.sites.map fun s => (l.name, s.name)).zipIdx.map
    fun ((layer, site), i) => { layer, site, index := i + 1 }

end Model
end LatticeKinetics
