import LatticeKinetics.Proofs.ConversionTables
import LatticeKinetics.Proofs.SiteTypes

/-! Which drafts become models. The rules are said once for the declarations themselves, without the
order in which they are checked; a draft can be built exactly when it keeps all of them. -/

namespace LatticeKinetics

open Text

inductive Declaration where
  | species (name : String)
  | defaultSpecies (name : String)
  | layer (layer : Layer)
  | conversion (source target : String) (shift : List Int)
  | sharedUnitCell
  | process (process : Process)

namespace Draft

def declare (d : Draft) : Declaration → Draft
  | .species name => { d with species := d.species ++ [name] }
  | .defaultSpecies name => { d with defaultSpecies := some name }
  | .layer layer => { d with layers := d.layers ++ [layer] }
  | .conversion source target shift =>
    { d with conversions := d.conversions.insert source target shift }
  | .sharedUnitCell => { d with sharedUnitCell := true }
  | .process process => { d with processes := d.processes ++ [process] }

def ofDeclarations (dimension : Nat) (declarations : List Declaration) : Draft :=
  declarations.foldl declare { dimension }

theorem consistent_declare {d : Draft} (h : d.conversions.Consistent) (declaration : Declaration) :
    (d.declare declaration).conversions.Consistent := by
  cases declaration with
  | conversion source target shift => exact h.insert source target shift
  | _ => exact h

theorem consistent_foldl_declare {d : Draft} (h : d.conversions.Consistent)
    (declarations : List Declaration) : (declarations.foldl declare d).conversions.Consistent := by
  induction declarations generalizing d with
  | nil => exact h
  | cons declaration declarations ih => exact ih (consistent_declare h declaration)

theorem consistent_ofDeclarations (dimension : Nat) (declarations : List Declaration) :
    (ofDeclarations dimension declarations).conversions.Consistent :=
  consistent_foldl_declare ConversionTable.consistent_empty declarations

section Rules

def HasLayer (d : Draft) (name : String) : Prop :=
  ∃ l ∈ d.layers, l.name = name

def HasSite (d : Draft) (layer site : String) : Prop :=
  ∃ l ∈ d.layers, l.name = layer ∧ site ∈ l.siteNames

def names (d : Draft) : List String :=
  d.species ++ d.layers.flatMap Model.layerNames ++ d.processes.map (·.name)

/-- The shift between two layers in the final table: the one that was declared, or none at all where
the layers share their unit cell. -/
def Converts (d : Draft) (source target : String) (shift : List Int) : Prop :=
  d.conversions.lookup? source target = some shift ∨
    d.conversions.lookup? source target = none ∧ d.sharedUnitCell = true ∧ source ≠ target ∧
      (d.HasLayer source ∧ d.HasLayer target) ∧ shift = List.replicate d.dimension 0

structure PlacementRules (d : Draft) (p : Placement) : Prop where
  offset : p.coord.offset.length = d.dimension
  site : d.HasSite p.coord.layer p.coord.site
  species : p.species ∈ d.species

def IsAnchor (p : Process) (anchor : Placement) : Prop :=
  ∃ before after, p.conditions = before ++ anchor :: after ∧
    (∀ x ∈ anchor.coord.offset, x = 0) ∧ ∀ c ∈ before, ∃ x ∈ c.coord.offset, x ≠ 0

structure ProcessRules (d : Draft) (p : Process) : Prop where
  placements : ∀ q ∈ p.conditions ++ p.actions, d.PlacementRules q
  conditionsApart : p.conditions.Pairwise (·.coord ≠ ·.coord)
  actionsApart : p.actions.Pairwise (·.coord ≠ ·.coord)
  anchored : ∃ anchor, IsAnchor p anchor ∧ ∀ c ∈ p.conditions,
    c.coord.layer = anchor.coord.layer ∨
      ∃ shift, d.Converts c.coord.layer anchor.coord.layer shift
  matched : ∀ a ∈ p.actions, ∃ c ∈ p.conditions, c.coord = a.coord

structure WellFormed (d : Draft) : Prop where
  dimension : d.dimension = 1 ∨ d.dimension = 2 ∨ d.dimension = 3
  species : d.species ≠ []
  layers : d.layers ≠ []
  sites : ∀ l ∈ d.layers, l.sites ≠ []
  defaultSpecies : ∃ name ∈ d.species, d.defaultSpecies.or d.species.head? = some name
  identifiers : ∀ name ∈ d.names, isIdentifier name = true
  distinct : d.names.Pairwise fun a b => foldCase a ≠ foldCase b
  conversions : ∀ source target shift, d.Converts source target shift →
    d.HasLayer source ∧ d.HasLayer target ∧ shift.length = d.dimension
  processes : ∀ p ∈ d.processes, d.ProcessRules p

end Rules

theorem firstRepeat?_eq_none_iff {seen names : List String} :
    firstRepeat? seen names = none ↔ names.Nodup ∧ ∀ name ∈ names, name ∉ seen := by
  induction names generalizing seen with
  | nil => simp [firstRepeat?]
  | cons name names ih =>
    unfold firstRepeat?
    split
    · simp_all
    · rw [ih, List.nodup_cons]
      grind

theorem pickDefault_eq_ok_iff {d : Draft} {name : String} :
    d.pickDefault = .ok name ↔
      name ∈ d.species ∧ d.defaultSpecies.or d.species.head? = some name := by
  unfold pickDefault
  cases hspecies : d.species with
  | nil => simp
  | cons first rest =>
    cases d.defaultSpecies with
    | none => simp; grind
    | some named => simp; grind

def assembled (d : Draft) (defaultSpecies : String) : Model where
  dimension := d.dimension
  species := d.species
  defaultSpecies := defaultSpecies
  layers := d.layers
  conversions := d.finalConversions
  processes := d.processes

theorem assemble_eq_ok_iff {d : Draft} {m : Model} :
    d.assemble = .ok m ↔
      d.species.Nodup ∧ ∃ name, d.pickDefault = .ok name ∧ d.assembled name = m := by
  have hrepeat : firstRepeat? [] d.species = none ↔ d.species.Nodup := by
    simp [firstRepeat?_eq_none_iff]
  rw [← hrepeat]
  unfold assemble
  cases firstRepeat? [] d.species with
  | some name => simp
  | none =>
    simp only [true_and, bind_eq_ok_iff, pure_eq_ok_iff]
    exact Iff.rfl

theorem exists_build_iff {d : Draft} :
    (∃ m, d.build = .ok m) ↔
      d.species.Nodup ∧ ∃ name, d.pickDefault = .ok name ∧ (d.assembled name).Rules := by
  unfold build
  simp only [bind_eq_ok_iff, assemble_eq_ok_iff, Model.check_eq_ok_iff, pure_eq_ok_iff]
  constructor
  · rintro ⟨_, m, ⟨hspecies, name, hname, rfl⟩, _, hrules, -⟩
    exact ⟨hspecies, name, hname, hrules⟩
  · rintro ⟨hspecies, name, hname, hrules⟩
    exact ⟨_, _, ⟨hspecies, name, hname, rfl⟩, (), hrules, rfl⟩

variable {d : Draft} {defaultSpecies : String}

theorem distinct_iff :
    (d.names.Pairwise fun a b => foldCase a ≠ foldCase b) ↔
      ((d.assembled defaultSpecies).names.map foldCase).Nodup :=
  List.pairwise_map.symm

theorem layerNames_nodup (h : d.names.Pairwise fun a b => foldCase a ≠ foldCase b) :
    (d.layers.map (·.name)).Nodup := by
  have hnames : d.names.Nodup := h.imp fun hfold heq => hfold (congrArg foldCase heq)
  unfold names at hnames
  exact (Model.map_name_sublist d.layers).nodup
    (List.nodup_append.1 (List.nodup_append.1 hnames).1).2.1

theorem isSome_layer?_iff {name : String} :
    ((d.assembled defaultSpecies).layer? name).isSome = true ↔ d.HasLayer name := by
  unfold Model.layer? HasLayer
  rw [List.find?_isSome]
  simp [assembled]

theorem hasSiteType_iff (h : (d.layers.map (·.name)).Nodup) {coord : Coordinate} :
    (d.assembled defaultSpecies).HasSiteType coord ↔ d.HasSite coord.layer coord.site := by
  unfold Model.HasSiteType Model.layer? HasSite
  simp only [assembled, Model.find?_name_eq_some_iff h, Layer.hasSite, Layer.siteNames,
    List.any_eq_true, List.mem_map, beq_iff_eq, and_assoc]

theorem declares_iff (h : (d.layers.map (·.name)).Nodup) {p : Placement} :
    (d.assembled defaultSpecies).Declares p ↔ d.PlacementRules p := by
  constructor
  · rintro ⟨hoffset, hsite, hspecies⟩
    exact ⟨hoffset, (hasSiteType_iff h).1 hsite, hspecies⟩
  · rintro ⟨hoffset, hsite, hspecies⟩
    exact ⟨hoffset, (hasSiteType_iff h).2 hsite, hspecies⟩

theorem consistent_finalConversions (h : d.conversions.Consistent) :
    d.finalConversions.Consistent := by
  unfold finalConversions
  split
  · exact h.complete _
  · exact h

theorem lookup?_finalConversions_iff (h : d.conversions.Consistent) {source target : String}
    {shift : List Int} :
    d.finalConversions.lookup? source target = some shift ↔ d.Converts source target shift := by
  unfold finalConversions Converts
  by_cases hshared : d.sharedUnitCell = true
  · rw [if_pos hshared, h.lookup?_complete_iff
      (ConversionTable.consistent_sharedUnitCell ConversionTable.consistent_empty)]
    by_cases hne : source = target
    · simp [hne]
    · rw [ConversionTable.lookup?_sharedUnitCell_empty_iff hne]
      simp [hshared, HasLayer]
  · simp [hshared]

theorem contains_finalConversions_iff (h : d.conversions.Consistent) {source target : String} :
    d.finalConversions.contains source target = true ↔
      source = target ∨ ∃ shift, d.Converts source target shift := by
  simp only [ConversionTable.contains_iff, lookup?_finalConversions_iff h]

theorem conversionRules_iff (h : d.conversions.Consistent) :
    (∀ c ∈ (d.assembled defaultSpecies).conversions.entries,
        (d.assembled defaultSpecies).ConversionRules c) ↔
      ∀ source target shift, d.Converts source target shift →
        d.HasLayer source ∧ d.HasLayer target ∧ shift.length = d.dimension := by
  have hmem : ∀ c : Conversion, c ∈ (d.assembled defaultSpecies).conversions.entries ↔
      d.Converts c.source c.target c.shift := fun c =>
    (consistent_finalConversions h).mem_entries_iff.trans (lookup?_finalConversions_iff h)
  constructor
  · intro hrules source target shift hconverts
    obtain ⟨hsource, htarget, hshift⟩ := hrules ⟨source, target, shift⟩ ((hmem _).2 hconverts)
    exact ⟨isSome_layer?_iff.1 hsource, isSome_layer?_iff.1 htarget, hshift⟩
  · intro hrules c hc
    obtain ⟨hsource, htarget, hshift⟩ := hrules _ _ _ ((hmem c).1 hc)
    exact ⟨isSome_layer?_iff.2 hsource, isSome_layer?_iff.2 htarget, hshift⟩

theorem anchor?_eq_some_iff {p : Process} {anchor : Placement} :
    p.anchor? = some anchor ↔ IsAnchor p anchor := by
  unfold Process.anchor? IsAnchor Coordinate.isAnchor
  rw [List.find?_eq_some_iff_append]
  constructor
  · rintro ⟨hzero, before, after, hconditions, hbefore⟩
    exact ⟨before, after, hconditions, by simpa using hzero, by simpa using hbefore⟩
  · rintro ⟨before, after, hconditions, hzero, hbefore⟩
    exact ⟨by simpa using hzero, before, after, hconditions, by simpa using hbefore⟩

theorem processRules_iff (h : d.conversions.Consistent) (hlayers : (d.layers.map (·.name)).Nodup)
    {p : Process} : (d.assembled defaultSpecies).ProcessRules p ↔ d.ProcessRules p := by
  constructor
  · rintro ⟨hconditions, hcapart, hactions, haapart, anchor, hanchor, hreach⟩
    refine ⟨?_, List.pairwise_map.1 hcapart, List.pairwise_map.1 haapart, ?_, ?_⟩
    · intro q hq
      rcases List.mem_append.1 hq with hq | hq
      · exact (declares_iff hlayers).1 (hconditions q hq)
      · exact (declares_iff hlayers).1 (hactions q hq).1
    · refine ⟨anchor, anchor?_eq_some_iff.1 hanchor, ?_⟩
      exact fun c hc => (contains_finalConversions_iff h).1 (hreach c hc)
    · exact fun a ha => (hactions a ha).2
  · rintro ⟨hplacements, hcapart, haapart, ⟨anchor, hanchor, hreach⟩, hmatched⟩
    refine ⟨?_, List.pairwise_map.2 hcapart, ?_, List.pairwise_map.2 haapart, anchor,
      anchor?_eq_some_iff.2 hanchor, ?_⟩
    · intro c hc
      exact (declares_iff hlayers).2 (hplacements c (List.mem_append_left _ hc))
    · intro a ha
      exact ⟨(declares_iff hlayers).2 (hplacements a (List.mem_append_right _ ha)), hmatched a ha⟩
    · exact fun c hc => (contains_finalConversions_iff h).2 (hreach c hc)

theorem exists_build_iff_wellFormed (h : d.conversions.Consistent) :
    (∃ m, d.build = .ok m) ↔ d.WellFormed := by
  rw [exists_build_iff]
  constructor
  · rintro ⟨-, name, hname, hrules⟩
    have hdistinct := distinct_iff.2 hrules.names.distinct
    have hlayers := layerNames_nodup hdistinct
    have hdimension : 1 ≤ d.dimension ∧ d.dimension ≤ 3 := hrules.dimension
    refine ⟨by omega, hrules.species, hrules.layers, hrules.sites, ?_, hrules.names.identifiers,
      hdistinct, (conversionRules_iff h).1 hrules.conversions, ?_⟩
    · exact ⟨name, pickDefault_eq_ok_iff.1 hname⟩
    · exact fun p hp => (processRules_iff h hlayers).1 (hrules.processes p hp)
  · intro hd
    obtain ⟨name, hname⟩ := hd.defaultSpecies
    have hlayers := layerNames_nodup hd.distinct
    have hdimension := hd.dimension
    have hspecies : d.species.Nodup := by
      have hnames : d.names.Nodup := hd.distinct.imp fun hfold heq => hfold (congrArg foldCase heq)
      unfold names at hnames
      exact (List.nodup_append.1 (List.nodup_append.1 hnames).1).1
    refine ⟨hspecies, name, pickDefault_eq_ok_iff.2 hname, ?_⟩
    refine ⟨?_, hd.species, hd.layers, hd.sites, ?_, (conversionRules_iff h).2 hd.conversions, ?_⟩
    · change 1 ≤ d.dimension ∧ d.dimension ≤ 3
      omega
    · exact ⟨hd.identifiers, distinct_iff.1 hd.distinct, by simp⟩
    · exact fun p hp => (processRules_iff h hlayers).2 (hd.processes p hp)

end Draft

/-- Whatever is declared in whatever order, a model comes of it exactly when the declarations are
well formed. -/
theorem build_accepts_exactly_well_formed (dimension : Nat) (declarations : List Declaration) :
    (∃ m, (Draft.ofDeclarations dimension declarations).build = .ok m) ↔
      (Draft.ofDeclarations dimension declarations).WellFormed :=
  Draft.exists_build_iff_wellFormed (Draft.consistent_ofDeclarations dimension declarations)

end LatticeKinetics
