import LatticeKinetics.Model.Draft

/-! Sample models: five small ones that each show one feature, and two families whose size can be
chosen. -/

namespace LatticeKinetics.Samples

def process (name rate : String) (conditions actions : List (Coordinate × String)) : Process :=
  { name
    rateConstant := rate
    conditions := conditions.map fun (coord, species) => ⟨coord, species⟩
    actions := actions.map fun (coord, species) => ⟨coord, species⟩ }

def plain (offset : List Int) : Coordinate :=
  ⟨offset, "a", "default"⟩

def plainLayer : Layer :=
  { name := "default", sites := [{ name := "a" }] }

def adsorb (name : String) (here : Coordinate) (species : String) (rate : String) : Process :=
  process name rate [(here, "empty")] [(here, species)]

def desorb (name : String) (here : Coordinate) (species : String) (rate : String) : Process :=
  process name rate [(here, species)] [(here, "empty")]

def hop (name : String) (here there : Coordinate) (species : String) (rate : String) : Process :=
  process name rate [(here, species), (there, "empty")] [(here, "empty"), (there, species)]

def adsorptionChain : Draft :=
  { dimension := 1
    species := ["empty", "A"]
    layers := [plainLayer]
    processes := [
      adsorb "adsA" (plain [0]) "A" "k_ads",
      desorb "desA" (plain [0]) "A" "k_des"] }

def sharedNeighbourChain : Draft :=
  { dimension := 1
    species := ["empty", "A", "B"]
    layers := [plainLayer]
    processes := [
      hop "hop" (plain [0]) (plain [1]) "A" "k_hop",
      process "push" "k_push"
        [(plain [0], "A"), (plain [1], "empty"), (plain [-1], "B")]
        [(plain [-1], "empty")],
      process "pull" "k_pull"
        [(plain [0], "A"), (plain [1], "empty"), (plain [2], "B")]
        [(plain [0], "empty")]] }

def diffusionChain : Draft :=
  { dimension := 1
    species := ["empty", "A"]
    layers := [plainLayer]
    processes := [
      adsorb "adsA" (plain [0]) "A" "k_ads",
      desorb "desA" (plain [0]) "A" "k_des",
      hop "hop_right" (plain [0]) (plain [1]) "A" "k_hop",
      hop "hop_left" (plain [0]) (plain [-1]) "A" "k_hop"] }

def bridge (offset : List Int) : Coordinate :=
  ⟨offset, "bridge", "ruo2"⟩

def cus (offset : List Int) : Coordinate :=
  ⟨offset, "cus", "ruo2"⟩

/-- Oxidation of CO on two site types, with pair adsorption and reaction. -/
def carbonMonoxideOxidation : Draft :=
  { dimension := 2
    species := ["empty", "CO", "O"]
    defaultSpecies := some "empty"
    layers := [{
      name := "ruo2"
      cellSize := ⟨6.43, 3.12, 20.0⟩
      sites := [
        { name := "bridge", position := ⟨0.0, 0.5, 0.7⟩ },
        { name := "cus", position := ⟨0.5, 0.5, 0.7⟩ }] }]
    processes := [
      adsorb "CO_ads_bridge" (bridge [0, 0]) "CO" "k_co_ads",
      adsorb "CO_ads_cus" (cus [0, 0]) "CO" "k_co_ads",
      desorb "CO_des_cus" (cus [0, 0]) "CO" "k_co_des",
      process "O2_ads_cus_cus" "k_o2_ads"
        [(cus [0, 0], "empty"), (cus [0, 1], "empty")] [(cus [0, 0], "O"), (cus [0, 1], "O")],
      process "O2_ads_bridge_cus" "k_o2_ads"
        [(bridge [0, 0], "empty"), (cus [0, 0], "empty")]
        [(bridge [0, 0], "O"), (cus [0, 0], "O")],
      process "CO_O_react" "k_react"
        [(cus [0, 0], "CO"), (bridge [1, 0], "O")]
        [(cus [0, 0], "empty"), (bridge [1, 0], "empty")],
      hop "CO_diff_cus_up" (cus [0, 0]) (cus [0, 1]) "CO" "k_diff",
      process "O_to_CO_swap" "k_swap" [(bridge [0, 0], "O")] [(bridge [0, 0], "CO")]] }

def bottom (dx : Int) : Coordinate :=
  ⟨[dx], "a", "bottom"⟩

def top (dx : Int) : Coordinate :=
  ⟨[dx], "t", "top"⟩

/-- Two layers whose cells are shifted by one against each other. -/
def twoLayerChain : Draft :=
  { dimension := 1
    species := ["empty", "A"]
    layers := [
      { name := "bottom", sites := [{ name := "a" }] },
      { name := "top", sites := [{ name := "t", position := ⟨0.5, 0.0, 1.0⟩ }] }]
    conversions := ConversionTable.empty.insert "top" "bottom" [1]
    processes := [
      adsorb "ads_bottom" (bottom 0) "A" "k_ads",
      hop "climb" (bottom 0) (top 0) "A" "k_climb",
      hop "descend" (top 0) (bottom 1) "A" "k_descend"] }

def neighbour (dimension axis : Nat) (step : Int) : Coordinate :=
  plain ((List.replicate dimension (0 : Int)).set axis step)

/-- What one species of the diffusion family does: adsorb, desorb, hop along every axis. -/
def diffusionProcesses (dimension : Nat) (name : String) : List Process :=
  let here := plain (List.replicate dimension 0)
  [adsorb s!"ads{name}" here name s!"k_ads_{name}",
    desorb s!"des{name}" here name s!"k_des_{name}"] ++
    (List.range dimension).flatMap fun axis =>
      [hop s!"hop{name}_p{axis}" here (neighbour dimension axis 1) name s!"k_hop_{name}",
        hop s!"hop{name}_m{axis}" here (neighbour dimension axis (-1)) name s!"k_hop_{name}"]

def diffusion (dimension count : Nat) : Draft :=
  let names := (List.range count).map fun i => s!"S{i + 1}"
  { dimension
    species := "empty" :: names
    layers := [plainLayer]
    processes := names.flatMap (diffusionProcesses dimension) }

def ball (radius : Nat) : List (List Int) :=
  let line : List Int := (List.range (2 * radius + 1)).map fun i => Int.ofNat i - radius
  line.flatMap fun dx =>
    (line.filter fun dy => dx.natAbs + dy.natAbs ≤ radius).map fun dy => [dx, dy]

/-- One process per radius, each asking about all sites up to it. -/
def shell (radius : Nat) : Draft :=
  { dimension := 2
    species := ["empty", "A"]
    layers := [plainLayer]
    processes := (List.range radius).map fun i =>
      process s!"fill_{i + 1}" "k_fill" ((ball (i + 1)).map fun cell => (plain cell, "empty"))
        [(plain [0, 0], "A")] }

end LatticeKinetics.Samples
