import LatticeKinetics.Coordinate.Parser
import LatticeKinetics.Json.Record
import LatticeKinetics.Model.Draft

/-! A model document is the JSON form of a draft, with coordinates as text. Loading one reads the
text, then the coordinates, then builds the model. -/

namespace LatticeKinetics

structure ElementDocument where
  coord : String := ""
  species : String := ""
deriving DecidableEq, Repr

structure ProcessDocument where
  name : String := ""
  rateConstant : String := ""
  conditions : List ElementDocument := []
  actions : List ElementDocument := []
deriving DecidableEq, Repr

structure ModelDocument where
  dimension : Nat := 0
  species : List String := []
  defaultSpecies : Option String := none
  layers : List Layer := []
  conversions : List Conversion := []
  sharedUnitCell : Bool := false
  processes : List ProcessDocument := []

inductive Role where
  | condition
  | action
deriving DecidableEq, Repr

def Role.render : Role → String
  | .condition => "condition"
  | .action => "action"

inductive LoadError where
  | unreadable (cause : Json.ReadError)
  | coordinate (process : String) (role : Role) (number : Nat) (cause : Coordinate.ParseError)
  | invalid (cause : ModelError)
deriving DecidableEq, Repr

def LoadError.message : LoadError → String
  | .unreadable cause => s!"invalid model document: {cause.message}"
  | .coordinate process role number cause =>
    s!"process '{process}' {role.render} {number}: {cause.message}"
  | .invalid cause => cause.message

namespace ModelDocument

open Json Json.Reader

def element : Reader ElementDocument :=
  record "struct ElementDocument" [
    .needed "coord" text fun e coord => { e with coord },
    .needed "species" text fun e species => { e with species }] {}

def process : Reader ProcessDocument :=
  record "struct ProcessDocument" [
    .needed "name" text fun p name => { p with name },
    .spare "rate_constant" text fun p rateConstant => { p with rateConstant },
    .needed "conditions" (listOf element) fun p conditions => { p with conditions },
    .spare "actions" (listOf element) fun p actions => { p with actions }] {}

def conversion : Reader Conversion :=
  record "struct ConversionDocument" [
    .needed "from" text fun c source => { c with source },
    .needed "to" text fun c target => { c with target },
    .needed "shift" (listOf word32) fun c shift => { c with shift }] ⟨"", "", []⟩

def site : Reader SiteType :=
  record "struct SiteDocument" [
    .needed "name" text fun s name => { s with name },
    .spare "position" (triple float) fun s position => { s with position }] { name := "" }

def layer : Reader Layer :=
  record "struct LayerDocument" [
    .needed "name" text fun l name => { l with name },
    .spare "cell_size" (triple float) fun l cellSize => { l with cellSize },
    .needed "sites" (listOf site) fun l sites => { l with sites }] { name := "", sites := [] }

def document : Reader ModelDocument :=
  record "struct ModelDocument" [
    .needed "dimension" natural fun d dimension => { d with dimension },
    .needed "species" (listOf text) fun d species => { d with species },
    .spare "default_species" (optional text) fun d defaultSpecies => { d with defaultSpecies },
    .needed "layers" (listOf layer) fun d layers => { d with layers },
    .spare "conversions" (listOf conversion) fun d conversions => { d with conversions },
    .spare "shared_unit_cell" boolean fun d sharedUnitCell => { d with sharedUnitCell },
    .spare "processes" (listOf process) fun d processes => { d with processes }] {}

def parse (input : String) : Except ReadError ModelDocument :=
  readAll document input

def readPlacements (dimension : Nat) (defaultLayer process : String) (role : Role) :
    Nat → List ElementDocument → Except LoadError (List Placement)
  | _, [] => .ok []
  | number, e :: es =>
    match Coordinate.parse e.coord dimension defaultLayer with
    | .error cause => .error (.coordinate process role number cause)
    | .ok coord => do
      let rest ← readPlacements dimension defaultLayer process role (number + 1) es
      pure (⟨coord, e.species⟩ :: rest)

def readProcesses (dimension : Nat) (defaultLayer : String) :
    List ProcessDocument → Except LoadError (List Process)
  | [] => .ok []
  | p :: ps => do
    let conditions ← readPlacements dimension defaultLayer p.name .condition 1 p.conditions
    let actions ← readPlacements dimension defaultLayer p.name .action 1 p.actions
    let rest ← readProcesses dimension defaultLayer ps
    pure ({ name := p.name, rateConstant := p.rateConstant, conditions, actions } :: rest)

def conversionTable (dimension : Nat) :
    ConversionTable → List Conversion → Except ModelError ConversionTable
  | table, [] => .ok table
  | table, c :: cs =>
    if c.shift.length = dimension then
      conversionTable dimension (table.insert c.source c.target c.shift) cs
    else .error (.offsetDimension (.conversion c.source c.target) dimension c.shift.length)

def toDraft (d : ModelDocument) : Except LoadError Draft :=
  match d.layers with
  | [] => .error (.invalid .noLayers)
  | first :: _ => do
    let conversions ← (conversionTable d.dimension .empty d.conversions).mapError .invalid
    let processes ← readProcesses d.dimension first.name d.processes
    pure {
      dimension := d.dimension
      species := d.species
      defaultSpecies := d.defaultSpecies
      layers := d.layers
      conversions
      sharedUnitCell := d.sharedUnitCell
      processes }

end ModelDocument

def Model.load (input : String) : Except LoadError Model := do
  let document ← (ModelDocument.parse input).mapError .unreadable
  let draft ← document.toDraft
  draft.build.mapError .invalid

end LatticeKinetics
