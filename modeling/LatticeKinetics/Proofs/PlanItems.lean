import LatticeKinetics.Proofs.PlanLookup
import LatticeKinetics.Proofs.TreeShape

/-! What the decision trees of a plan speak of: processes, site types and species of the model and
nothing else. The items from which they are made do, and synthesis adds nothing. -/

namespace LatticeKinetics

namespace Classification

variable {frames : List Frame}

theorem mem_occurrences {o : Occurrence} :
    o ∈ occurrences frames ↔
      o.frame ∈ frames ∧ o.frame.conditions[o.place]? = some o.condition := by
  unfold occurrences
  simp only [List.mem_flatMap, List.mem_map, List.mem_zipIdx_iff_getElem?]
  constructor
  · rintro ⟨f, hf, ⟨c, n⟩, hc, rfl⟩
    exact ⟨hf, hc⟩
  · rintro ⟨hf, hc⟩
    exact ⟨o.frame, hf, (o.condition, o.place), hc, rfl⟩

end Classification

namespace Model

variable {m : Model} {frames : List Frame}

theorem Rules.hasSiteType_iff (h : m.Rules) {coord : Coordinate} :
    m.HasSiteType coord ↔ (coord.layer, coord.site) ∈ m.siteTypes := by
  refine ⟨?_, h.hasSiteType_of_mem⟩
  intro htype
  obtain ⟨slot, hslot⟩ := exists_coordIndex_eq_ok htype
  exact List.mem_of_getElem? (coordIndex_eq_ok hslot).2

theorem process?_number (h : m.Rules) (hf : m.frames = .ok frames) {f : Frame}
    (hmem : f ∈ frames) : m.process? f.number = some f.process := by
  obtain ⟨hlow, hget⟩ := frames_getElem?_number h hf hmem
  obtain ⟨p, hp, hof, -⟩ := frames_getElem? h hf hget
  obtain ⟨-, -, -, hprocess, -⟩ := Frame.ofProcess_eq_ok_iff.1 hof
  unfold process?
  rw [if_neg (by omega), hp, hprocess]

theorem exists_frame (hf : m.frames = .ok frames) {number : Nat} {q : Process}
    (hq : m.process? number = some q) : ∃ f ∈ frames, Frame.ofProcess m number q = .ok f := by
  unfold process? at hq
  split at hq
  · contradiction
  · have hnumbered : m.numberedProcesses[number - 1]? = some (number, q) := by
      rw [numberedProcesses_getElem?, hq, Option.map_some, Nat.sub_add_cancel (by omega)]
    obtain ⟨f, hget, hof⟩ := forall₂_getElem? (Frame.ofProcesses_forall₂ hf) hnumbered
    exact ⟨f, List.mem_of_getElem? hget, hof⟩

theorem exists_process (h : m.Rules) (hf : m.frames = .ok frames) {f : Frame}
    (hmem : f ∈ frames) :
    ∃ q, m.process? f.number = some q ∧ Frame.ofProcess m f.number q = .ok f := by
  have hq := process?_number h hf hmem
  obtain ⟨g, hg, hof⟩ := exists_frame hf hq
  obtain rfl := eq_of_number_eq h hf hmem hg (Frame.number_ofProcess hof).symm
  exact ⟨_, hq, hof⟩

structure Reaches (m : Model) (coord : Coordinate) : Prop where
  siteType : (coord.layer, coord.site) ∈ m.siteTypes
  offset : coord.offset.length = m.dimension

structure KnowsItem (m : Model) (i : Item Effect) : Prop where
  process : (m.process? i.payload.process).isSome = true
  location : m.Reaches i.payload.location
  questions : ∀ q ∈ i.questions, m.Reaches q.coord ∧ q.species ∈ m.species

structure KnowsAll (m : Model) (effects : List Effect) (queries : List Coordinate)
    (species : List String) : Prop where
  processes : ∀ e ∈ effects, (m.process? e.process).isSome = true
  locations : ∀ e ∈ effects, m.Reaches e.location
  queries : ∀ c ∈ queries, m.Reaches c
  species : ∀ s ∈ species, s ∈ m.species

theorem KnowsAll.mono {effects effects' : List Effect} {queries queries' : List Coordinate}
    {species species' : List String} (h : m.KnowsAll effects queries species)
    (he : effects' ⊆ effects) (hq : queries' ⊆ queries) (hs : species' ⊆ species) :
    m.KnowsAll effects' queries' species' :=
  ⟨fun e h' => h.processes e (he h'), fun e h' => h.locations e (he h'),
    fun c h' => h.queries c (hq h'), fun s h' => h.species s (hs h')⟩

/-- The tree names nothing that is not declared. -/
abbrev Knows (m : Model) (t : Tree Effect) : Prop :=
  m.KnowsAll t.payloads t.queries t.caseSpecies

theorem knows_of_fire {payload : Effect} {rest : Tree Effect} (h : m.Knows (.fire payload rest)) :
    m.Knows rest :=
  h.mono (List.subset_cons_self _ _) (List.Subset.refl _) (List.Subset.refl _)

theorem knows_of_query {coord : Coordinate} {arms : Arms Effect} {rest : Tree Effect}
    (h : m.Knows (.query coord arms rest)) :
    m.KnowsAll arms.payloads arms.queries arms.caseSpecies ∧ m.Knows rest :=
  ⟨h.mono (List.subset_append_left _ _)
      (List.subset_cons_of_subset _ (List.subset_append_left _ _)) (List.subset_append_left _ _),
    h.mono (List.subset_append_right _ _)
      (List.subset_cons_of_subset _ (List.subset_append_right _ _))
      (List.subset_append_right _ _)⟩

theorem knowsAll_of_case {species : String} {body : Tree Effect} {others : Arms Effect}
    (h : m.KnowsAll (Arms.case species body others).payloads
      (Arms.case species body others).queries (Arms.case species body others).caseSpecies) :
    m.Knows body ∧ m.KnowsAll others.payloads others.queries others.caseSpecies :=
  ⟨h.mono (List.subset_append_left _ _) (List.subset_append_left _ _)
      (List.subset_cons_of_subset _ (List.subset_append_left _ _)),
    h.mono (List.subset_append_right _ _) (List.subset_append_right _ _)
      (List.subset_cons_of_subset _ (List.subset_append_right _ _))⟩

theorem knows_synthesize {items : List (Item Effect)} (hitems : ∀ i ∈ items, m.KnowsItem i) :
    m.Knows (.synthesize items) := by
  have hpayload : ∀ e ∈ (Tree.synthesize items).payloads, ∃ i ∈ items, i.payload = e := by
    intro e he
    exact List.mem_map.1 ((Tree.payloads_synthesize_perm items).mem_iff.1 he)
  refine ⟨?_, ?_, ?_, ?_⟩
  · intro e he
    obtain ⟨i, hi, rfl⟩ := hpayload e he
    exact (hitems i hi).process
  · intro e he
    obtain ⟨i, hi, rfl⟩ := hpayload e he
    exact (hitems i hi).location
  · intro c hc
    obtain ⟨i, hi, q, hq, rfl⟩ :=
      Synthesis.mem_questionCoords.1 (Tree.queries_synthesize_subset items hc)
    exact ((hitems i hi).questions q hq).1
  · intro s hs
    obtain ⟨i, hi, q, hq, rfl⟩ := Tree.exists_question_of_mem_caseSpecies hs
    exact ((hitems i hi).questions q hq).2

section Frames

variable {f : Frame}

theorem reaches_displacement (h : m.Rules) {a b : Coordinate}
    (ha : a.offset.length = m.dimension) (htype : m.HasSiteType b)
    (hb : b.offset.length = m.dimension) : m.Reaches (a.displacement b) := by
  refine ⟨h.hasSiteType_iff.1 htype, ?_⟩
  simp [Coordinate.displacement, Coordinate.withOffset, ha, hb]

theorem knows_conditionsFrom (h : m.Rules) (hf : m.frames = .ok frames) (hmem : f ∈ frames)
    {k : Nat} {c : Placement} (hc : f.conditions[k]? = some c) :
    ∀ q ∈ f.conditionsFrom k, m.Reaches q.coord ∧ q.species ∈ m.species := by
  have hrules := frameRules h hf hmem
  intro q hq
  obtain ⟨d, hd, rfl⟩ := List.mem_map.1 hq
  have hdeclares := hrules.conditions d hd
  refine ⟨?_, hdeclares.species⟩
  rw [Frame.coordAt_of_getElem? hc]
  exact reaches_displacement h (hrules.conditions c (List.mem_of_getElem? hc)).offset
    hdeclares.siteType hdeclares.offset

theorem knowsItem_anchorItem (h : m.Rules) (hf : m.frames = .ok frames) (hmem : f ∈ frames) :
    m.KnowsItem f.anchorItem := by
  have hrules := frameRules h hf hmem
  obtain ⟨c, hc⟩ := hrules.anchor
  refine ⟨?_, ⟨h.hasSiteType_iff.1 hrules.declares_anchor.1, hrules.declares_anchor.2⟩,
    knows_conditionsFrom h hf hmem hc⟩
  exact Option.isSome_iff_exists.2 ⟨f.process, process?_number h hf hmem⟩

end Frames

theorem knowsItem_of_mem_items (h : m.Rules) (hf : m.frames = .ok frames) {e : Event}
    {c : Classification} (hc : Classification.ofEvent m frames e = .ok c) {i : Item Effect}
    (hi : i ∈ c.items) : m.KnowsItem i := by
  obtain ⟨-, henables, hdisables⟩ := Classification.ofEvent_eq_ok hc
  have htouched : ∀ o ∈ Classification.touched frames e,
      o.frame ∈ frames ∧ o.frame.conditions[o.place]? = some o.condition := by
    intro o ho
    exact Classification.mem_occurrences.1 (List.mem_of_mem_filter ho)
  have hnumber : ∀ o ∈ Classification.touched frames e,
      (m.process? o.frame.number).isSome = true := by
    intro o ho
    exact Option.isSome_iff_exists.2 ⟨_, process?_number h hf (htouched o ho).1⟩
  have hanchor : ∀ o ∈ Classification.touched frames e,
      m.Reaches (o.frame.anchorFrom o.place) := by
    intro o ho
    obtain ⟨hmem, hc⟩ := htouched o ho
    have hrules := frameRules h hf hmem
    unfold Frame.anchorFrom
    rw [Frame.coordAt_of_getElem? hc]
    exact reaches_displacement h (hrules.conditions _ (List.mem_of_getElem? hc)).offset
      hrules.declares_anchor.1 hrules.declares_anchor.2
  unfold Classification.items at hi
  rw [henables, hdisables, List.map_map, List.map_map] at hi
  rcases List.mem_append.1 hi with hi | hi
  · obtain ⟨o, ho, rfl⟩ := List.mem_map.1 hi
    have ho := List.mem_of_mem_filter ho
    exact ⟨hnumber o ho, hanchor o ho, by simp⟩
  · obtain ⟨o, ho, rfl⟩ := List.mem_map.1 hi
    have ho := List.mem_of_mem_filter ho
    refine ⟨hnumber o ho, hanchor o ho, ?_⟩
    intro q hq
    obtain ⟨hmem, hc⟩ := htouched o ho
    exact knows_conditionsFrom h hf hmem hc q (List.mem_of_mem_eraseIdx hq)

end Model

namespace Plan.CompiledFrom

variable {p : Plan} {m : Model} {frames : List Frame}

theorem exists_ofEvent (h : p.CompiledFrom m frames) {u : Update} (hu : u ∈ p.updates) :
    ∃ c, Classification.ofEvent m frames u.event = .ok c ∧ u = c.update m.defaultSpecies := by
  obtain ⟨cs, hcs, hupdates⟩ := h.updates
  rw [hupdates] at hu
  obtain ⟨c, hc, rfl⟩ := List.mem_map.1 hu
  obtain ⟨e, -, hofc⟩ := forall₂_mem (Classification.ofEvents_forall₂ hcs) hc
  obtain rfl := (Classification.ofEvent_eq_ok hofc).1
  exact ⟨c, hofc, rfl⟩

theorem species_update (h : p.CompiledFrom m frames) {u : Update} (hu : u ∈ p.updates) :
    u.before = u.event.before m.defaultSpecies ∧ u.after = u.event.after m.defaultSpecies := by
  obtain ⟨c, -, hupdate⟩ := h.exists_ofEvent hu
  rw [hupdate]
  exact ⟨rfl, rfl⟩

theorem knows_update (h : p.CompiledFrom m frames) (hm : m.Rules) (hf : m.frames = .ok frames)
    {u : Update} (hu : u ∈ p.updates) : m.Knows u.tree := by
  obtain ⟨c, hc, hupdate⟩ := h.exists_ofEvent hu
  rw [hupdate]
  exact Model.knows_synthesize fun i hi => Model.knowsItem_of_mem_items hm hf hc hi

theorem knows_touchup (h : p.CompiledFrom m frames) (hm : m.Rules) (hf : m.frames = .ok frames)
    {t : Touchup} (ht : t ∈ p.touchups) : m.Knows t.tree := by
  rw [h.touchups] at ht
  obtain ⟨s, -, rfl⟩ := List.mem_map.1 ht
  apply Model.knows_synthesize
  intro i hi
  obtain ⟨f, hfmem, rfl⟩ := List.mem_map.1 hi
  exact Model.knowsItem_anchorItem hm hf (List.mem_of_mem_filter hfmem)

theorem removals_declared (h : p.CompiledFrom m frames) (hm : m.Rules)
    (hf : m.frames = .ok frames) {t : Touchup} (ht : t ∈ p.touchups) :
    ∀ n ∈ t.removals, (m.process? n).isSome = true := by
  rw [h.touchups] at ht
  obtain ⟨s, -, rfl⟩ := List.mem_map.1 ht
  intro n hn
  obtain ⟨f, hfmem, rfl⟩ := List.mem_map.1 hn
  exact Option.isSome_iff_exists.2
    ⟨f.process, Model.process?_number hm hf (List.mem_of_mem_filter hfmem)⟩

end Plan.CompiledFrom
end LatticeKinetics
