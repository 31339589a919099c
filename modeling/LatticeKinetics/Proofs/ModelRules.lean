import LatticeKinetics.Model.Draft
import LatticeKinetics.Proofs.Outcome

/-! The rules of a model, said without the checks that enforce them. Each check succeeds exactly
when its rule holds. -/

namespace LatticeKinetics

open Text

namespace Model

/-- The names can be claimed after those that are taken: they are identifiers, and no two of them
agree when case does not count. -/
structure Fresh (taken names : List String) : Prop where
  identifiers : ∀ name ∈ names, isIdentifier name = true
  distinct : (names.map foldCase).Nodup
  untaken : ∀ name ∈ names, foldCase name ∉ taken

def claimed (taken names : List String) : List String :=
  (names.map foldCase).reverse ++ taken

@[simp] theorem mem_claimed {taken names : List String} {name : String} :
    name ∈ claimed taken names ↔ name ∈ names.map foldCase ∨ name ∈ taken := by
  simp [claimed]

theorem claimed_append (taken names more : List String) :
    claimed taken (names ++ more) = claimed (claimed taken names) more := by
  simp [claimed]

theorem fresh_nil (taken : List String) : Fresh taken [] :=
  ⟨by simp, by simp, by simp⟩

theorem fresh_append_iff {taken names more : List String} :
    Fresh taken (names ++ more) ↔ Fresh taken names ∧ Fresh (claimed taken names) more := by
  constructor
  · rintro ⟨hid, hdistinct, hun⟩
    rw [List.map_append, List.nodup_append] at hdistinct
    obtain ⟨hn, hm, hnm⟩ := hdistinct
    refine ⟨⟨fun n h => hid n (by simp [h]), hn, fun n h => hun n (by simp [h])⟩,
      ⟨fun n h => hid n (by simp [h]), hm, ?_⟩⟩
    intro n h hmem
    rcases mem_claimed.1 hmem with hmem | hmem
    · exact hnm _ hmem _ (List.mem_map_of_mem h) rfl
    · exact hun n (by simp [h]) hmem
  · rintro ⟨⟨hid, hn, hun⟩, ⟨hid', hm, hun'⟩⟩
    refine ⟨?_, ?_, ?_⟩
    · intro n h
      exact (List.mem_append.1 h).elim (hid n) (hid' n)
    · rw [List.map_append, List.nodup_append]
      refine ⟨hn, hm, ?_⟩
      intro a ha b hb hab
      obtain ⟨n, hnm, rfl⟩ := List.mem_map.1 hb
      exact hun' n hnm (mem_claimed.2 (.inl (hab ▸ ha)))
    · intro n h
      rcases List.mem_append.1 h with h | h
      · exact hun n h
      · exact fun hmem => hun' n h (mem_claimed.2 (.inr hmem))

theorem fresh_singleton_iff {taken : List String} {name : String} :
    Fresh taken [name] ↔ isIdentifier name = true ∧ foldCase name ∉ taken := by
  constructor
  · intro h
    exact ⟨h.identifiers name (by simp), h.untaken name (by simp)⟩
  · rintro ⟨hid, hun⟩
    exact ⟨by simpa using hid, by simp, by simpa using hun⟩

theorem claim_eq_ok_iff {kind : NameKind} {taken taken' : List String} {name : String} :
    claim kind taken name = .ok taken' ↔ Fresh taken [name] ∧ claimed taken [name] = taken' := by
  unfold claim
  simp [fresh_singleton_iff, claimed, and_assoc]

theorem claimAll_eq_ok_iff {kind : NameKind} {taken taken' names : List String} :
    claimAll kind taken names = .ok taken' ↔
      Fresh taken names ∧ claimed taken names = taken' := by
  induction names generalizing taken with
  | nil => simp [claimAll, fresh_nil, claimed]
  | cons name names ih =>
    rw [show name :: names = [name] ++ names from rfl, fresh_append_iff, claimed_append]
    simp only [List.singleton_append, claimAll, bind_eq_ok_iff, claim_eq_ok_iff, ih]
    constructor
    · rintro ⟨_, ⟨h, rfl⟩, h', rfl⟩
      exact ⟨⟨h, h'⟩, rfl⟩
    · rintro ⟨⟨h, h'⟩, rfl⟩
      exact ⟨_, ⟨h, rfl⟩, h', rfl⟩

theorem claimSites_eq_ok_iff {layer : String} {seen taken taken' sites : List String} :
    claimSites layer seen taken sites = .ok taken' ↔
      (∀ site ∈ sites, site ∉ seen) ∧ Fresh taken (sites.map (siteConstant layer)) ∧
        claimed taken (sites.map (siteConstant layer)) = taken' := by
  induction sites generalizing seen taken with
  | nil => simp [claimSites, fresh_nil, claimed]
  | cons site sites ih =>
    rw [List.map_cons, show siteConstant layer site :: sites.map (siteConstant layer) =
      [siteConstant layer site] ++ sites.map (siteConstant layer) from rfl, fresh_append_iff,
      claimed_append]
    simp only [claimSites, ite_error_eq_ok_iff, bind_eq_ok_iff, claim_eq_ok_iff, ih]
    constructor
    · rintro ⟨hsite, _, ⟨h, rfl⟩, hsites, h', rfl⟩
      refine ⟨?_, ⟨h, h'⟩, rfl⟩
      intro s hs
      rcases List.mem_cons.1 hs with rfl | hs
      · exact hsite
      · exact fun hseen => hsites s hs (List.mem_cons_of_mem _ hseen)
    · rintro ⟨hseen, ⟨h, h'⟩, rfl⟩
      refine ⟨hseen site (by simp), _, ⟨h, rfl⟩, ?_, h', rfl⟩
      intro s hs hmem
      rcases List.mem_cons.1 hmem with rfl | hmem
      · exact h'.untaken _ (List.mem_map_of_mem hs) (by simp)
      · exact hseen s (by simp [hs]) hmem

def layerNames (l : Layer) : List String :=
  l.name :: l.siteNames.map (siteConstant l.name)

theorem claimLayers_eq_ok_iff {taken taken' : List String} {layers : List Layer} :
    claimLayers taken layers = .ok taken' ↔
      (∀ l ∈ layers, l.sites ≠ []) ∧ Fresh taken (layers.flatMap layerNames) ∧
        claimed taken (layers.flatMap layerNames) = taken' := by
  induction layers generalizing taken with
  | nil => simp [claimLayers, fresh_nil, claimed]
  | cons l layers ih =>
    rw [List.flatMap_cons, fresh_append_iff, claimed_append, layerNames,
      show l.name :: l.siteNames.map (siteConstant l.name) =
        [l.name] ++ l.siteNames.map (siteConstant l.name) from rfl, fresh_append_iff,
      claimed_append]
    simp only [claimLayers, bind_eq_ok_iff, claim_eq_ok_iff, guard_eq_ok_iff,
      claimSites_eq_ok_iff, ih, List.isEmpty_iff, List.not_mem_nil, not_false_eq_true,
      implies_true, true_and, List.forall_mem_cons]
    constructor
    · rintro ⟨_, ⟨h, rfl⟩, hl, _, ⟨h', rfl⟩, hls, h'', rfl⟩
      exact ⟨⟨hl, hls⟩, ⟨⟨h, h'⟩, h''⟩, rfl⟩
    · rintro ⟨⟨hl, hls⟩, ⟨⟨h, h'⟩, h''⟩, rfl⟩
      exact ⟨_, ⟨h, rfl⟩, hl, _, ⟨h', rfl⟩, hls, h'', rfl⟩

def names (m : Model) : List String :=
  m.species ++ m.layers.flatMap layerNames ++ m.processes.map (·.name)

theorem checkNames_eq_ok_iff {m : Model} {u : Unit} :
    m.checkNames = .ok u ↔ (∀ l ∈ m.layers, l.sites ≠ []) ∧ Fresh [] m.names := by
  unfold checkNames names
  simp only [bind_eq_ok_iff, claimAll_eq_ok_iff, claimLayers_eq_ok_iff, pure_eq_ok_iff,
    fresh_append_iff, claimed_append]
  constructor
  · rintro ⟨_, ⟨hs, rfl⟩, _, ⟨hl, hf, rfl⟩, _, ⟨hp, -⟩, -⟩
    exact ⟨hl, ⟨hs, hf⟩, hp⟩
  · rintro ⟨hl, ⟨hs, hf⟩, hp⟩
    exact ⟨_, ⟨hs, rfl⟩, _, ⟨hl, hf, rfl⟩, _, ⟨hp, rfl⟩, trivial⟩

theorem checkEach_eq_ok_iff {α : Type} {check : α → Except ModelError Unit} {as : List α}
    {u : Unit} : checkEach check as = .ok u ↔ ∀ a ∈ as, check a = .ok () := by
  induction as with
  | nil => simp [checkEach]
  | cons a as ih =>
    have hunit : (∃ v, check a = .ok v) ↔ check a = .ok () :=
      ⟨fun ⟨_, h⟩ => h, fun h => ⟨(), h⟩⟩
    simp [checkEach, ih, hunit]

def HasSiteType (m : Model) (coord : Coordinate) : Prop :=
  ∃ l, m.layer? coord.layer = some l ∧ l.hasSite coord.site = true

/-- A placement speaks of a site type and a species of the model, with one offset per axis. -/
structure Declares (m : Model) (p : Placement) : Prop where
  offset : p.coord.offset.length = m.dimension
  siteType : m.HasSiteType p.coord
  species : p.species ∈ m.species

theorem checkOffset_eq_ok_iff {m : Model} {usage : Usage} {offset : List Int} {u : Unit} :
    m.checkOffset usage offset = .ok u ↔ offset.length = m.dimension := by
  unfold checkOffset
  split <;> simp [*]

theorem checkLayer_eq_ok_iff {m : Model} {usage : Usage} {layer : String} {u : Unit} :
    m.checkLayer usage layer = .ok u ↔ (m.layer? layer).isSome = true := by
  unfold checkLayer
  split <;> simp [*]

theorem checkCoordinate_eq_ok_iff {m : Model} {usage : Usage} {coord : Coordinate} {u : Unit} :
    m.checkCoordinate usage coord = .ok u ↔
      coord.offset.length = m.dimension ∧ m.HasSiteType coord := by
  unfold checkCoordinate HasSiteType
  simp only [bind_eq_ok_iff, checkOffset_eq_ok_iff, exists_const]
  cases m.layer? coord.layer with
  | none => simp
  | some l => by_cases h : l.hasSite coord.site = true <;> simp [h]

theorem requireSpecies_eq_ok_iff {m : Model} {process name : String} :
    (∃ n, m.requireSpecies process name = .ok n) ↔ name ∈ m.species := by
  unfold requireSpecies speciesNumber?
  cases h : m.species.findIdx? (· == name) with
  | none =>
    have hn : name ∉ m.species := by
      intro hmem
      simpa using List.findIdx?_eq_none_iff.1 h name hmem
    simp [hn]
  | some n =>
    have hmem : name ∈ m.species := by
      have hlt := List.findIdx?_eq_some_iff_getElem.1 h
      obtain ⟨hlt, heq, -⟩ := hlt
      have : m.species[n] = name := by simpa using heq
      exact this ▸ List.getElem_mem hlt
    simp [hmem]

theorem checkPlacement_eq_ok_iff {m : Model} {process : String} {p : Placement} {u : Unit} :
    m.checkPlacement process p = .ok u ↔ m.Declares p := by
  unfold checkPlacement
  simp only [bind_eq_ok_iff, checkCoordinate_eq_ok_iff, pure_eq_ok_iff, and_true,
    requireSpecies_eq_ok_iff, exists_const]
  constructor
  · rintro ⟨⟨ho, ht⟩, hs⟩
    exact ⟨ho, ht, hs⟩
  · rintro ⟨ho, ht, hs⟩
    exact ⟨⟨ho, ht⟩, hs⟩

theorem checkConditions_eq_ok_iff {m : Model} {process : String} {seen : List Coordinate}
    {cs : List Placement} {u : Unit} :
    m.checkConditions process seen cs = .ok u ↔
      (∀ c ∈ cs, m.Declares c) ∧ (cs.map (·.coord)).Nodup ∧ ∀ c ∈ cs, c.coord ∉ seen := by
  induction cs generalizing seen with
  | nil => simp [checkConditions]
  | cons c cs ih =>
    simp only [checkConditions, bind_eq_ok_iff, checkPlacement_eq_ok_iff, exists_const,
      guard_eq_ok_iff, ih, List.map_cons, List.nodup_cons, List.mem_map,
      List.mem_cons, not_or]
    grind

theorem conditionAt?_isNone_iff {p : Process} {coord : Coordinate} :
    (p.conditionAt? coord).isNone = true ↔ ∀ c ∈ p.conditions, c.coord ≠ coord := by
  simp [Process.conditionAt?]

theorem checkActions_eq_ok_iff {m : Model} {p : Process} {seen : List Coordinate}
    {as : List Placement} {u : Unit} :
    m.checkActions p seen as = .ok u ↔
      (∀ a ∈ as, m.Declares a ∧ ∃ c ∈ p.conditions, c.coord = a.coord) ∧
        (as.map (·.coord)).Nodup ∧ ∀ a ∈ as, a.coord ∉ seen := by
  induction as generalizing seen with
  | nil => simp [checkActions]
  | cons a as ih =>
    simp only [checkActions, bind_eq_ok_iff, checkPlacement_eq_ok_iff, exists_const,
      guard_eq_ok_iff, conditionAt?_isNone_iff, ih, List.map_cons,
      List.nodup_cons, List.mem_map, List.mem_cons, not_or]
    grind

theorem checkReach_eq_ok_iff {m : Model} {anchorLayer : String} {cs : List Placement}
    {u : Unit} :
    m.checkReach anchorLayer cs = .ok u ↔
      ∀ c ∈ cs, m.conversions.contains c.coord.layer anchorLayer = true := by
  induction cs with
  | nil => simp [checkReach]
  | cons c cs ih =>
    by_cases h : m.conversions.contains c.coord.layer anchorLayer = true <;>
      simp [checkReach, h, ih]

structure ProcessRules (m : Model) (p : Process) : Prop where
  conditions : ∀ c ∈ p.conditions, m.Declares c
  conditionsApart : (p.conditions.map (·.coord)).Nodup
  actions : ∀ a ∈ p.actions, m.Declares a ∧ ∃ c ∈ p.conditions, c.coord = a.coord
  actionsApart : (p.actions.map (·.coord)).Nodup
  anchored : ∃ anchor, p.anchor? = some anchor ∧
    ∀ c ∈ p.conditions, m.conversions.contains c.coord.layer anchor.coord.layer = true

theorem checkProcess_eq_ok_iff {m : Model} {p : Process} {u : Unit} :
    m.checkProcess p = .ok u ↔ m.ProcessRules p := by
  unfold checkProcess
  simp only [bind_eq_ok_iff, checkConditions_eq_ok_iff, exists_const]
  cases ha : p.anchor? with
  | none =>
    constructor
    · simp
    · rintro ⟨-, -, -, -, anchor, hanchor, -⟩
      rw [ha] at hanchor
      contradiction
  | some anchor =>
    simp only [bind_eq_ok_iff, checkActions_eq_ok_iff, checkReach_eq_ok_iff, exists_const]
    constructor
    · rintro ⟨⟨hc, hcd, -⟩, ⟨hac, had, -⟩, hr⟩
      exact ⟨hc, hcd, hac, had, anchor, ha, hr⟩
    · rintro ⟨hc, hcd, hac, had, anchor', ha', hr⟩
      obtain rfl : anchor = anchor' := Option.some.inj (ha.symm.trans ha')
      exact ⟨⟨hc, hcd, by simp⟩, ⟨hac, had, by simp⟩, hr⟩

structure ConversionRules (m : Model) (c : Conversion) : Prop where
  source : (m.layer? c.source).isSome = true
  target : (m.layer? c.target).isSome = true
  shift : c.shift.length = m.dimension

theorem checkConversion_eq_ok_iff {m : Model} {c : Conversion} {u : Unit} :
    m.checkConversion c = .ok u ↔ m.ConversionRules c := by
  unfold checkConversion
  simp only [bind_eq_ok_iff, checkLayer_eq_ok_iff, checkOffset_eq_ok_iff, exists_const]
  constructor
  · rintro ⟨hs, ht, ho⟩
    exact ⟨hs, ht, ho⟩
  · rintro ⟨hs, ht, ho⟩
    exact ⟨hs, ht, ho⟩

structure Rules (m : Model) : Prop where
  dimension : 1 ≤ m.dimension ∧ m.dimension ≤ 3
  species : m.species ≠ []
  layers : m.layers ≠ []
  sites : ∀ l ∈ m.layers, l.sites ≠ []
  names : Fresh [] m.names
  conversions : ∀ c ∈ m.conversions.entries, m.ConversionRules c
  processes : ∀ p ∈ m.processes, m.ProcessRules p

theorem check_eq_ok_iff {m : Model} {u : Unit} : m.check = .ok u ↔ m.Rules := by
  unfold check
  simp only [guard_eq_ok_iff, bind_eq_ok_iff, checkNames_eq_ok_iff, checkEach_eq_ok_iff,
    checkConversion_eq_ok_iff, checkProcess_eq_ok_iff, exists_const, List.isEmpty_iff]
  constructor
  · rintro ⟨hd, hs, hl, ⟨hne, hn⟩, hc, hp⟩
    exact ⟨by omega, hs, hl, hne, hn, hc, hp⟩
  · rintro ⟨hd, hs, hl, hne, hn, hc, hp⟩
    exact ⟨by omega, hs, hl, ⟨hne, hn⟩, hc, hp⟩

end Model

namespace Draft

theorem pickDefault_eq_ok {d : Draft} {name : String} (h : d.pickDefault = .ok name) :
    name ∈ d.species := by
  unfold pickDefault at h
  split at h
  · contradiction
  · dsimp only at h
    split at h
    · rename_i hmem
      exact Except.ok.inj h ▸ hmem
    · contradiction

theorem assemble_eq_ok {d : Draft} {m : Model} (h : d.assemble = .ok m) :
    m.defaultSpecies ∈ m.species := by
  unfold assemble at h
  split at h
  · simp at h
  · simp only [bind_eq_ok_iff, pure_eq_ok_iff] at h
    obtain ⟨name, hname, rfl⟩ := h
    exact pickDefault_eq_ok hname

theorem build_eq_ok {d : Draft} {m : Model} (h : d.build = .ok m) :
    m.Rules ∧ m.defaultSpecies ∈ m.species := by
  unfold build at h
  simp only [bind_eq_ok_iff, pure_eq_ok_iff] at h
  obtain ⟨_, ha, _, hc, rfl⟩ := h
  exact ⟨Model.check_eq_ok_iff.1 hc, assemble_eq_ok ha⟩

end Draft
end LatticeKinetics
