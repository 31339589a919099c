import LatticeKinetics.Proofs.Compilation
import LatticeKinetics.Proofs.PlanItems
import LatticeKinetics.Samples

/-! What the classification of an event says of the conditions of a model. A condition on the site
type of the event that requires what the site then holds enables its process, one that requires
what it held before disables it, and no other condition occurs. Each occurs once and in the order
in which it is declared. -/

namespace LatticeKinetics

/-- Where a condition stands: the number of its process, and its place there. -/
structure ConditionRank where
  process : Nat
  place : Nat
deriving DecidableEq, Repr

def ConditionRank.Precedes (r s : ConditionRank) : Prop :=
  r.process < s.process ∨ r.process = s.process ∧ r.place < s.place

def Enabling.rank (x : Enabling) : ConditionRank :=
  ⟨x.process, x.trigger⟩

def Disabling.rank (x : Disabling) : ConditionRank :=
  ⟨x.process, x.trigger⟩

namespace Model

def Requires (m : Model) (e : Event) (species : String) (r : ConditionRank) : Prop :=
  ∃ q c, m.process? r.process = some q ∧ q.conditions[r.place]? = some c ∧
    c.coord.layer = e.layer ∧ c.coord.site = e.site ∧ c.species = species

def RequiresFirst (m : Model) (e : Event) (species : String) (r : ConditionRank) : Prop :=
  m.Requires e species r ∧ ∀ s, m.Requires e species s → s = r ∨ r.Precedes s

/-- The condition of that rank sees the target there, when both are read from the anchor. -/
def Sees (m : Model) (r : ConditionRank) (target seen : Coordinate) : Prop :=
  ∃ q c anchor near far, m.process? r.process = some q ∧ q.conditions[r.place]? = some c ∧
    q.anchor? = some anchor ∧ c.coord.relativeTo anchor.coord m.conversions = .ok near ∧
    target.relativeTo anchor.coord m.conversions = .ok far ∧ seen = near.displacement far

def Locates (m : Model) (r : ConditionRank) (location : Coordinate) : Prop :=
  ∃ q anchor, m.process? r.process = some q ∧ q.anchor? = some anchor ∧
    m.Sees r anchor.coord location

/-- The questions are the other conditions of the process in their order, as the condition of that
rank sees them. -/
def Asks (m : Model) (r : ConditionRank) (questions : List Placement) : Prop :=
  ∃ q, m.process? r.process = some q ∧
    List.Forall₂ (fun c question => m.Sees r c.coord question.coord ∧ question.species = c.species)
      (q.conditions.eraseIdx r.place) questions

end Model

namespace Classification

/-- The classification lists what the event does to the conditions of the model, and nothing
else. -/
structure Complete (c : Classification) (m : Model) (e : Event) : Prop where
  event : c.event = e
  enabled : ∀ r, m.Requires e (e.after m.defaultSpecies) r →
    (c.enables.map (·.rank)).count r = 1 ∧ (c.disables.map (·.rank)).count r = 0
  disabled : ∀ r, m.Requires e (e.before m.defaultSpecies) r →
    (c.disables.map (·.rank)).count r = 1 ∧ (c.enables.map (·.rank)).count r = 0
  unaffected : ∀ r, ¬m.Requires e (e.after m.defaultSpecies) r →
    ¬m.Requires e (e.before m.defaultSpecies) r →
      (c.enables.map (·.rank)).count r = 0 ∧ (c.disables.map (·.rank)).count r = 0
  enablesInOrder : (c.enables.map (·.rank)).Pairwise ConditionRank.Precedes
  disablesInOrder : (c.disables.map (·.rank)).Pairwise ConditionRank.Precedes
  enablings : ∀ x ∈ c.enables, m.Locates x.rank x.location ∧ m.Asks x.rank x.questions
  disablings : ∀ x ∈ c.disables, m.Locates x.rank x.location

/-- The outcome for an event of the default species: an error that names the first condition that
asks for this species, or nothing to enable or disable. -/
structure RefusesDefault (outcome : Except ModelError Classification) (m : Model) (e : Event) :
    Prop where
  refused : (∃ name c species, outcome = .error (.ambiguousEmptySpecies name c species)) ↔
    ∃ r, m.Requires e m.defaultSpecies r
  named : ∀ name c species, outcome = .error (.ambiguousEmptySpecies name c species) →
    species = m.defaultSpecies ∧ ∃ r q, m.RequiresFirst e m.defaultSpecies r ∧
      m.process? r.process = some q ∧ q.name = name ∧ q.conditions[r.place]? = some c
  otherwise : (∀ r, ¬m.Requires e m.defaultSpecies r) → outcome = .ok ⟨e, [], []⟩

def Occurrence.rank (o : Occurrence) : ConditionRank :=
  ⟨o.frame.number, o.place⟩

def requiring (frames : List Frame) (e : Event) (species : String) : List Occurrence :=
  (touched frames e).filter (·.condition.species == species)

end Classification

theorem ConditionRank.Precedes.ne {r s : ConditionRank} (h : r.Precedes s) : r ≠ s := by
  rintro rfl
  rcases h with h | ⟨-, h⟩ <;> omega

namespace Event

variable {e : Event} {defaultSpecies : String}

theorem touches_iff {coord : Coordinate} :
    e.touches coord = true ↔ coord.layer = e.layer ∧ coord.site = e.site := by
  simp [touches, and_comm]

theorem unchanged_of_default (h : e.species = defaultSpecies) :
    e.after defaultSpecies = defaultSpecies ∧ e.before defaultSpecies = defaultSpecies := by
  unfold after before
  cases e.direction with
  | put => exact ⟨h, rfl⟩
  | take => exact ⟨rfl, h⟩

end Event

private theorem forall₂_eraseIdx {α β : Type} {R : α → β → Prop} {as : List α} {bs : List β}
    (h : List.Forall₂ R as bs) (n : Nat) : List.Forall₂ R (as.eraseIdx n) (bs.eraseIdx n) := by
  rw [List.eraseIdx_eq_take_drop_succ, List.eraseIdx_eq_take_drop_succ]
  exact List.rel_append (List.forall₂_take n h) (List.forall₂_drop (n + 1) h)

private theorem pairwise_zipIdx {α : Type} (as : List α) :
    as.zipIdx.Pairwise fun a b => a.2 < b.2 := by
  rw [← List.pairwise_map (f := Prod.snd) (R := (· < ·)), List.zipIdx_map_snd]
  exact List.pairwise_lt_range'

namespace Frame

variable {m : Model} {number k : Nat} {q : Process} {f : Frame} {c anchor : Placement}

theorem forall₂_conditions (hf : ofProcess m number q = .ok f) (hanchor : q.anchor? = some anchor) :
    List.Forall₂ (fun c c' => c.coord.relativeTo anchor.coord m.conversions = .ok c'.coord ∧
      c'.species = c.species) q.conditions f.conditions := by
  obtain ⟨anchor', hanchor', -, -, -, hconditions, -⟩ := ofProcess_eq_ok_iff.1 hf
  obtain rfl := Option.some.inj (hanchor'.symm.trans hanchor)
  exact framePlacements_forall₂ hconditions

theorem exists_anchor (hf : ofProcess m number q = .ok f) :
    ∃ anchor, q.anchor? = some anchor ∧ q.conditions[f.anchor]? = some anchor := by
  obtain ⟨anchor, hanchor, -, -, hplace, -⟩ := ofProcess_eq_ok_iff.1 hf
  exact ⟨anchor, hanchor, (anchor_getElem? hplace hanchor).1⟩

theorem forall₂_conditionsFrom (hq : m.process? number = some q)
    (hf : ofProcess m number q = .ok f) (hk : q.conditions[k]? = some c) :
    List.Forall₂ (fun d seen => m.Sees ⟨number, k⟩ d.coord seen.coord ∧ seen.species = d.species)
      q.conditions (f.conditionsFrom k) := by
  obtain ⟨anchor, hanchor, -⟩ := exists_anchor hf
  have hframed := forall₂_conditions hf hanchor
  obtain ⟨near, hnear, hseen, -⟩ := forall₂_getElem? hframed hk
  unfold conditionsFrom
  rw [List.forall₂_map_right_iff, coordAt_of_getElem? hnear]
  exact hframed.imp fun d far hd =>
    ⟨⟨q, c, anchor, _, _, hq, hk, hanchor, hseen, hd.1, rfl⟩, hd.2⟩

theorem locates_anchorFrom (hq : m.process? number = some q) (hf : ofProcess m number q = .ok f)
    (hk : q.conditions[k]? = some c) : m.Locates ⟨number, k⟩ (f.anchorFrom k) := by
  obtain ⟨anchor, hanchor, hplace⟩ := exists_anchor hf
  obtain ⟨seen, hseen, hsees, -⟩ := forall₂_getElem? (forall₂_conditionsFrom hq hf hk) hplace
  refine ⟨q, anchor, hq, hanchor, ?_⟩
  unfold conditionsFrom at hseen
  rw [List.getElem?_map] at hseen
  obtain ⟨framed, hframed, rfl⟩ := Option.map_eq_some_iff.1 hseen
  rw [anchorFrom, anchorCoord, coordAt_of_getElem? hframed]
  exact hsees

theorem asks_questionsFrom (hq : m.process? number = some q) (hf : ofProcess m number q = .ok f)
    (hk : q.conditions[k]? = some c) : m.Asks ⟨number, k⟩ (f.questionsFrom k) :=
  ⟨q, hq, forall₂_eraseIdx (forall₂_conditionsFrom hq hf hk) k⟩

end Frame

namespace Classification

variable {m : Model} {frames : List Frame} {e : Event} {species : String} {o : Occurrence}
  {r : ConditionRank}

/-! Order. -/

theorem pairwise_number (hf : m.frames = .ok frames) :
    frames.Pairwise fun f g => f.number < g.number := by
  rw [← List.pairwise_map (f := Frame.number) (R := (· < ·)), ← Model.map_number_frames hf]
  unfold Model.numberedProcesses
  rw [List.map_map]
  exact List.pairwise_map.2 ((pairwise_zipIdx m.processes).imp Nat.succ_lt_succ)

theorem pairwise_occurrences (hf : m.frames = .ok frames) :
    (occurrences frames).Pairwise fun o o' => o.rank.Precedes o'.rank := by
  unfold occurrences
  rw [List.pairwise_flatMap]
  refine ⟨?_, (pairwise_number hf).imp ?_⟩
  · intro f _
    exact List.pairwise_map.2 ((pairwise_zipIdx f.conditions).imp fun hlt => .inr ⟨rfl, hlt⟩)
  · intro f g hlt o ho o' ho'
    obtain ⟨_, -, rfl⟩ := List.mem_map.1 ho
    obtain ⟨_, -, rfl⟩ := List.mem_map.1 ho'
    exact .inl hlt

theorem pairwise_requiring (hf : m.frames = .ok frames) (e : Event) (species : String) :
    (requiring frames e species).Pairwise fun o o' => o.rank.Precedes o'.rank :=
  ((pairwise_occurrences hf).filter _).filter _

/-! Membership. -/

theorem exists_declared (h : m.Rules) (hf : m.frames = .ok frames) (ho : o ∈ occurrences frames) :
    m.process? o.rank.process = some o.frame.process ∧
      Frame.ofProcess m o.frame.number o.frame.process = .ok o.frame ∧
      o.frame.process.conditions[o.place]? = some o.declared ∧
      o.declared.coord.layer = o.condition.coord.layer ∧
      o.declared.coord.site = o.condition.coord.site ∧
      o.declared.species = o.condition.species := by
  obtain ⟨hmem, hcondition⟩ := mem_occurrences.1 ho
  obtain ⟨q, hq, hof⟩ := Model.exists_process h hf hmem
  obtain ⟨anchor, hanchor, -, hprocess, -⟩ := Frame.ofProcess_eq_ok_iff.1 hof
  rw [hprocess]
  obtain ⟨c, hc, hframed, hspecies⟩ :=
    forall₂_getElem? (Frame.forall₂_conditions hof hanchor).flip hcondition
  obtain ⟨shift, -, hcoord⟩ := Coordinate.relativeTo_eq_ok hframed
  have hdeclared : o.declared = c := by
    rw [Occurrence.declared, hprocess, hc, Option.getD_some]
  rw [hdeclared, hcoord]
  exact ⟨hq, hof, hc, rfl, rfl, hspecies.symm⟩

theorem mem_requiring_iff (h : m.Rules) (hf : m.frames = .ok frames) :
    (∃ o ∈ requiring frames e species, o.rank = r) ↔ m.Requires e species r := by
  unfold requiring touched
  simp only [List.mem_filter, beq_iff_eq, Event.touches_iff]
  constructor
  · rintro ⟨o, ⟨⟨ho, hlayer, hsite⟩, hspecies⟩, rfl⟩
    obtain ⟨hq, -, hc, hl, hs, hsp⟩ := exists_declared h hf ho
    exact ⟨_, _, hq, hc, hl.trans hlayer, hs.trans hsite, hsp.trans hspecies⟩
  · rintro ⟨q, c, hq, hc, hlayer, hsite, hspecies⟩
    obtain ⟨f, hmem, hof⟩ := Model.exists_frame hf hq
    obtain ⟨anchor, hanchor, -⟩ := Frame.exists_anchor hof
    obtain ⟨c', hc', hframed, hsp⟩ := forall₂_getElem? (Frame.forall₂_conditions hof hanchor) hc
    obtain ⟨shift, -, hcoord⟩ := Coordinate.relativeTo_eq_ok hframed
    refine ⟨⟨f, r.place, c'⟩, ⟨⟨mem_occurrences.2 ⟨hmem, hc'⟩, ?_, ?_⟩, hsp.trans hspecies⟩, ?_⟩
    · rw [hcoord]
      exact hlayer
    · rw [hcoord]
      exact hsite
    · rw [Occurrence.rank, Frame.number_ofProcess hof]

theorem count_requiring (h : m.Rules) (hf : m.frames = .ok frames)
    (hr : m.Requires e species r) : ((requiring frames e species).map (·.rank)).count r = 1 := by
  apply List.count_eq_one_of_mem
  · exact (List.pairwise_map.2 (pairwise_requiring hf e species)).imp fun hlt => hlt.ne
  · exact List.mem_map.2 ((mem_requiring_iff h hf).2 hr)

theorem count_requiring_eq_zero (h : m.Rules) (hf : m.frames = .ok frames)
    (hr : ¬m.Requires e species r) : ((requiring frames e species).map (·.rank)).count r = 0 :=
  List.count_eq_zero_of_not_mem fun hmem => hr ((mem_requiring_iff h hf).1 (List.mem_map.1 hmem))

theorem not_requires_both {a b : String} (hne : a ≠ b) (ha : m.Requires e a r) :
    ¬m.Requires e b r := by
  rintro ⟨q, c, hq, hc, -, -, hb⟩
  obtain ⟨q', c', hq', hc', -, -, ha⟩ := ha
  obtain rfl := Option.some.inj (hq'.symm.trans hq)
  obtain rfl := Option.some.inj (hc'.symm.trans hc)
  exact hne (ha.symm.trans hb)

/-! The outcome. -/

theorem complete_ofEvent (h : m.Rules) (hf : m.frames = .ok frames)
    (hspecies : e.species ≠ m.defaultSpecies) {c : Classification}
    (hc : ofEvent m frames e = .ok c) : c.Complete m e := by
  obtain ⟨hevent, henables, hdisables⟩ := ofEvent_eq_ok hc
  have hne := Event.before_ne_after hspecies
  have henabled : c.enables.map (·.rank) =
      (requiring frames e (e.after m.defaultSpecies)).map (·.rank) := by
    rw [henables, List.map_map]
    rfl
  have hdisabled : c.disables.map (·.rank) =
      (requiring frames e (e.before m.defaultSpecies)).map (·.rank) := by
    rw [hdisables, List.map_map]
    rfl
  have hdeclared : ∀ species, ∀ o ∈ requiring frames e species,
      m.Locates o.rank (o.frame.anchorFrom o.place) ∧
        m.Asks o.rank (o.frame.questionsFrom o.place) := by
    intro species o ho
    have hmem := List.mem_of_mem_filter (List.mem_of_mem_filter ho)
    obtain ⟨hq, hof, hcondition, -⟩ := exists_declared h hf hmem
    exact ⟨Frame.locates_anchorFrom hq hof hcondition, Frame.asks_questionsFrom hq hof hcondition⟩
  refine ⟨hevent, ?_, ?_, ?_, ?_, ?_, ?_, ?_⟩
  · intro r hr
    rw [henabled, hdisabled]
    exact ⟨count_requiring h hf hr, count_requiring_eq_zero h hf (not_requires_both hne.symm hr)⟩
  · intro r hr
    rw [henabled, hdisabled]
    exact ⟨count_requiring h hf hr, count_requiring_eq_zero h hf (not_requires_both hne hr)⟩
  · intro r hafter hbefore
    rw [henabled, hdisabled]
    exact ⟨count_requiring_eq_zero h hf hafter, count_requiring_eq_zero h hf hbefore⟩
  · rw [henabled]
    exact List.pairwise_map.2 (pairwise_requiring hf e _)
  · rw [hdisabled]
    exact List.pairwise_map.2 (pairwise_requiring hf e _)
  · intro x hx
    rw [henables] at hx
    obtain ⟨o, ho, rfl⟩ := List.mem_map.1 hx
    exact hdeclared _ o ho
  · intro x hx
    rw [hdisables] at hx
    obtain ⟨o, ho, rfl⟩ := List.mem_map.1 hx
    exact (hdeclared _ o ho).1

theorem ambiguous?_eq_head? (hspecies : e.species = m.defaultSpecies) :
    ambiguous? m.defaultSpecies e (touched frames e) =
      (requiring frames e m.defaultSpecies).head? := by
  obtain ⟨hafter, hbefore⟩ := Event.unchanged_of_default hspecies
  unfold ambiguous? requiring
  rw [hafter, hbefore, List.head?_filter]
  simp only [Bool.and_self]

theorem ofEvent_default (h : m.Rules) (hdefault : m.defaultSpecies ∈ m.species)
    (hspecies : e.species = m.defaultSpecies) (hsite : (e.layer, e.site) ∈ m.siteTypes) :
    ofEvent m frames e =
      match (requiring frames e m.defaultSpecies).head? with
      | some o => .error (.ambiguousEmptySpecies o.frame.process.name o.declared m.defaultSpecies)
      | none => .ok ⟨e, [], []⟩ := by
  obtain ⟨hafter, hbefore⟩ := Event.unchanged_of_default hspecies
  rw [h.ofEvent_eq (hspecies ▸ hdefault) hsite, ambiguous?_eq_head? hspecies, hafter, hbefore,
    hspecies]
  cases hhead : (requiring frames e m.defaultSpecies).head? with
  | some o => rfl
  | none =>
    have hnone : (touched frames e).filter (·.condition.species == m.defaultSpecies) = [] :=
      List.head?_eq_none_iff.1 hhead
    rw [hnone]
    rfl

theorem requiresFirst_of_head? (h : m.Rules) (hf : m.frames = .ok frames)
    (ho : (requiring frames e species).head? = some o) : m.RequiresFirst e species o.rank := by
  obtain ⟨rest, hlist⟩ := List.head?_eq_some_iff.1 ho
  have hpairwise := pairwise_requiring hf e species
  rw [hlist, List.pairwise_cons] at hpairwise
  refine ⟨(mem_requiring_iff h hf).1 ⟨o, hlist ▸ List.mem_cons_self, rfl⟩, ?_⟩
  intro s hs
  obtain ⟨o', ho', rfl⟩ := (mem_requiring_iff h hf).2 hs
  rw [hlist] at ho'
  rcases List.mem_cons.1 ho' with rfl | ho'
  · exact .inl rfl
  · exact .inr (hpairwise.1 o' ho')

theorem refusesDefault_ofEvent (h : m.Rules) (hf : m.frames = .ok frames)
    (hdefault : m.defaultSpecies ∈ m.species) (hspecies : e.species = m.defaultSpecies)
    (hsite : (e.layer, e.site) ∈ m.siteTypes) :
    RefusesDefault (ofEvent m frames e) m e := by
  rw [ofEvent_default h hdefault hspecies hsite]
  cases hhead : (requiring frames e m.defaultSpecies).head? with
  | none =>
    have hnone : ∀ r, ¬m.Requires e m.defaultSpecies r := by
      intro r hr
      obtain ⟨o, ho, -⟩ := (mem_requiring_iff h hf).2 hr
      rw [List.head?_eq_none_iff.1 hhead] at ho
      exact List.not_mem_nil ho
    exact ⟨by simp [hnone], by simp, fun _ => rfl⟩
  | some o =>
    have hfirst := requiresFirst_of_head? h hf hhead
    have hmem := List.mem_of_mem_filter (List.mem_of_mem_filter (List.mem_of_mem_head? hhead))
    obtain ⟨hq, -, hc, -⟩ := exists_declared h hf hmem
    refine ⟨?_, ?_, fun hnone => absurd hfirst.1 (hnone _)⟩
    · exact ⟨fun _ => ⟨_, hfirst.1⟩, fun _ => ⟨_, _, _, rfl⟩⟩
    · intro name c species herror
      simp only [Except.error.injEq, ModelError.ambiguousEmptySpecies.injEq] at herror
      obtain ⟨rfl, rfl, rfl⟩ := herror
      exact ⟨rfl, _, _, hfirst, hq, rfl, hc⟩

end Classification

/-- The classification of an event is complete. An event of the default species has none as soon as
a condition asks for this species; the first one is named. -/
theorem events_classified_completely {d : Draft} {m : Model} (hd : d.build = .ok m) :
    ∃ frames, m.frames = .ok frames ∧ ∀ e : Event, (e.layer, e.site) ∈ m.siteTypes →
      (e.species ∈ m.species → e.species ≠ m.defaultSpecies →
        ∃ c, Classification.ofEvent m frames e = .ok c ∧ c.Complete m e) ∧
      (e.species = m.defaultSpecies →
        Classification.RefusesDefault (Classification.ofEvent m frames e) m e) := by
  obtain ⟨hrules, hdefault⟩ := Draft.build_eq_ok hd
  obtain ⟨frames, hframes⟩ := hrules.exists_frames_eq_ok
  refine ⟨frames, hframes, fun e hsite => ⟨?_, ?_⟩⟩
  · intro hspecies hne
    obtain ⟨c, hc⟩ :=
      hrules.exists_ofEvent_eq_ok (Model.mem_events_iff.2 ⟨hspecies, hne, hsite⟩) frames
    exact ⟨c, hc, Classification.complete_ofEvent hrules hframes hne hc⟩
  · intro hspecies
    exact Classification.refusesDefault_ofEvent hrules hframes hdefault hspecies hsite

/-- Conditions on a third species stay out of the classification. The event of the default species
is refused at the second condition of the first process. -/
theorem shared_neighbour_events_classified_completely :
    ∃ m frames c, Samples.sharedNeighbourChain.build = .ok m ∧ m.frames = .ok frames ∧
      Classification.ofEvent m frames ⟨.put, "B", "default", "a"⟩ = .ok c ∧
      c.enables.map (·.rank) = [⟨2, 2⟩, ⟨3, 2⟩] ∧
      c.disables.map (·.rank) = [⟨1, 1⟩, ⟨2, 1⟩, ⟨3, 1⟩] ∧
      c.Complete m ⟨.put, "B", "default", "a"⟩ ∧
      Classification.ofEvent m frames ⟨.take, "empty", "default", "a"⟩ =
        .error (.ambiguousEmptySpecies "hop" ⟨⟨[1], "a", "default"⟩, "empty"⟩ "empty") ∧
      Classification.RefusesDefault
        (Classification.ofEvent m frames ⟨.take, "empty", "default", "a"⟩) m
        ⟨.take, "empty", "default", "a"⟩ := by
  have h : (do
      let m ← Samples.sharedNeighbourChain.build.toOption
      let frames ← m.frames.toOption
      let c ← (Classification.ofEvent m frames ⟨.put, "B", "default", "a"⟩).toOption
      guard (c.enables.map (·.rank) = [⟨2, 2⟩, ⟨3, 2⟩] ∧
        c.disables.map (·.rank) = [⟨1, 1⟩, ⟨2, 1⟩, ⟨3, 1⟩] ∧
        Classification.ofEvent m frames ⟨.take, "empty", "default", "a"⟩ =
          .error (.ambiguousEmptySpecies "hop" ⟨⟨[1], "a", "default"⟩, "empty"⟩ "empty") ∧
        m.species = ["empty", "A", "B"] ∧ m.defaultSpecies = "empty" ∧
        m.siteTypes = [("default", "a")])) = some () := by
    decide +kernel
  simp only [Option.bind_eq_bind, Option.bind_eq_some_iff, toOption_eq_some_iff,
    Option.guard_eq_some'] at h
  obtain ⟨m, hm, frames, hframes, c, hc, henables, hdisables, hrefused, hspecies, hdefault,
    htypes⟩ := h
  obtain ⟨frames', hframes', hclassified⟩ := events_classified_completely hm
  obtain rfl := Except.ok.inj (hframes'.symm.trans hframes)
  obtain ⟨c', hc', hcomplete⟩ := (hclassified ⟨.put, "B", "default", "a"⟩ (by simp [htypes])).1
    (by simp [hspecies]) (by simp [hdefault])
  obtain rfl := Except.ok.inj (hc'.symm.trans hc)
  exact ⟨m, frames', c', hm, hframes, hc, henables, hdisables, hcomplete, hrefused,
    (hclassified ⟨.take, "empty", "default", "a"⟩ (by simp [htypes])).2 hdefault.symm⟩

end LatticeKinetics
