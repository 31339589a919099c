import LatticeKinetics.Proofs.KernelTouchup
import LatticeKinetics.Proofs.PlanItems

/-! What an update does to the list. When one site changes, a process can become possible only if it
wants what the site now holds, and impossible only if it wants what the site held before; the update
enables and disables exactly these. -/

namespace LatticeKinetics

namespace Classification

variable {frames : List Frame}

theorem occurrences_nodup (h : frames.Nodup) : (occurrences frames).Nodup := by
  apply List.nodup_flatMap.2
  constructor
  · intro f _
    apply List.Nodup.of_map (·.place)
    rw [List.map_map]
    exact (List.zipIdx_map_snd 0 f.conditions).symm ▸ List.nodup_range' ..
  · refine List.Nodup.pairwise_of_forall_ne h ?_
    intro f _ g _ hfg o hof hog
    obtain ⟨_, -, rfl⟩ := List.mem_map.1 hof
    obtain ⟨_, -, heq⟩ := List.mem_map.1 hog
    exact hfg (congrArg Occurrence.frame heq).symm

/-- The disablings of an event fire whatever is around; an enabling fires where its questions find
what they ask for. -/
theorem due_items {m : Model} {e : Event} {c : Classification} (h : ofEvent m frames e = .ok c)
    (occupant : Coordinate → String) :
    Synthesis.due occupant c.items =
      ((touched frames e).filter (·.condition.species == e.before m.defaultSpecies)).map
          (fun o => .disable o.frame.number (o.frame.anchorFrom o.place)) ++
        (((touched frames e).filter (·.condition.species == e.after m.defaultSpecies)).filter
          fun o => ∀ q ∈ o.frame.questionsFrom o.place, occupant q.coord = q.species).map
            fun o => .enable o.frame.number (o.frame.anchorFrom o.place) := by
  obtain ⟨-, henables, hdisables⟩ := ofEvent_eq_ok h
  unfold items
  rw [Synthesis.due_append, henables, hdisables, List.map_map, List.map_map]
  unfold Synthesis.due
  rw [List.filter_map, List.filter_map, List.map_map, List.map_map]
  congr 1
  rw [List.filter_eq_self.2]
  · rfl
  · intro o _
    simp [Item.Satisfied]

end Classification

namespace Kernel

/-- Seen from the site of the registration, its process has a condition on site `x` that requires
the species. -/
def Wants (k : Kernel) (frames : List Frame) (x : Nat) (species : String) (r : Registration) :
    Prop :=
  ∃ f ∈ frames, r.1 = f.number ∧ k.Hosts f r.2 ∧
    ∃ c ∈ f.conditions, k.place r.2 c.coord = x ∧ c.species = species

def Meets (k : Kernel) (e : Event) (x : Nat) : Prop :=
  ∃ type, k.siteType x = .ok type ∧ type.layer = e.layer ∧ type.site = e.site

/-- No two conditions of a process that require the same species are on one site, wherever the
anchor of the process is. -/
def Separated (k : Kernel) : Prop :=
  ∀ frames, k.model.frames = .ok frames → ∀ f ∈ frames, ∀ index, k.Hosts f index →
    f.conditions.Pairwise fun a b =>
      a.species = b.species → k.resolve index a.coord ≠ k.resolve index b.coord

instance (k : Kernel) : Decidable k.Separated :=
  match h : k.model.frames with
  | .error _ => .isTrue fun _ hframes => by simp [h] at hframes
  | .ok frames => decidable_of_iff
      (∀ f ∈ frames, ∀ index ∈ k.sites, k.OnType index f.anchorCoord →
        f.conditions.Pairwise fun a b =>
          a.species = b.species → k.resolve index a.coord ≠ k.resolve index b.coord)
      ⟨fun hall _ hframes f hf index hhosts =>
          hall f (Except.ok.inj (h.symm.trans hframes) ▸ hf) index hhosts.1 hhosts.2,
        fun hall f hf index hi htype => hall frames h f hf index ⟨hi, htype⟩⟩

variable {k : Kernel} {frames : List Frame} {s s' : KernelState} {x : Nat}

namespace Built

theorem condition_hasSiteType (hb : k.Built frames) {f : Frame} (hf : f ∈ frames)
    {c : Placement} (hc : c ∈ f.conditions) : k.model.HasSiteType c.coord :=
  ((hb.frameRules hf).conditions c hc).siteType

theorem eq_of_wants (hb : k.Built frames) (hs : k.Full s) {r : Registration}
    (hcan : k.CanRun frames s r) {species found : String} (hwants : k.Wants frames x species r)
    (hx : s.species? x = some found) : species = found := by
  obtain ⟨f, hf, hnumber, hhosts, hconditions⟩ := hcan
  obtain ⟨g, hg, hnumber', -, c, hc, hplace, rfl⟩ := hwants
  obtain rfl := Model.eq_of_number_eq hb.rules hb.framed hf hg (hnumber.symm.trans hnumber')
  have hoccupant := hb.species?_place hs hhosts.1 (hb.condition_hasSiteType hf hc)
  rw [hplace, hx, hconditions c hc] at hoccupant
  exact (Option.some.inj hoccupant).symm

theorem canRun_of_not_wants (hb : k.Built frames) (hs : k.Full s) (hs' : k.Full s')
    {r : Registration} (hcan : k.CanRun frames s r) {found : String}
    (hx : s.species? x = some found) (hwants : ¬k.Wants frames x found r)
    (hsame : ∀ t, t ≠ x → s'.species? t = s.species? t) : k.CanRun frames s' r := by
  obtain ⟨f, hf, hnumber, hhosts, hconditions⟩ := hcan
  refine ⟨f, hf, hnumber, hhosts, ?_⟩
  intro c hc
  have htype := hb.condition_hasSiteType hf hc
  -- A condition on the site that changed would require what was found there.
  have hplace : k.place r.2 c.coord ≠ x := by
    intro hplace
    have hc' : k.Wants frames x c.species r := ⟨f, hf, hnumber, hhosts, c, hc, hplace, rfl⟩
    have hspecies := hb.eq_of_wants hs ⟨f, hf, hnumber, hhosts, hconditions⟩ hc' hx
    exact hwants (hspecies ▸ hc')
  rw [← hconditions c hc]
  exact hb.occupant_eq_of_species?_eq hs' hs hhosts.1 hhosts.1 htype htype (hsame _ hplace)

/-- When one site changes, a process is possible afterwards if it wants what is now on the site and
all else is as it requires, or if it was possible and did not want what was there before. -/
theorem canRun_withSpecies_iff (hb : k.Built frames) (hs : k.Full s) {before after : String}
    (hbefore : s.species? x = some before) (hchange : before ≠ after) {r : Registration} :
    k.CanRun frames (s.withSpecies x after) r ↔
      k.CanRun frames (s.withSpecies x after) r ∧ k.Wants frames x after r ∨
        k.CanRun frames s r ∧ ¬k.Wants frames x before r := by
  have hfull := hs.withSpecies x after
  have hafter : (s.withSpecies x after).species? x = some after := by
    rw [KernelState.species?_withSpecies hbefore, if_pos rfl]
  have hsame : ∀ t, t ≠ x → (s.withSpecies x after).species? t = s.species? t := by
    intro t ht
    rw [KernelState.species?_withSpecies hbefore, if_neg ht]
  constructor
  · intro hcan
    by_cases hwants : k.Wants frames x after r
    · exact .inl ⟨hcan, hwants⟩
    · refine .inr ⟨?_, ?_⟩
      · exact hb.canRun_of_not_wants hfull hs hcan hafter hwants fun t ht => (hsame t ht).symm
      · exact fun hwants' => hchange (hb.eq_of_wants hfull hcan hwants' hafter)
  · rintro (⟨hcan, -⟩ | ⟨hcan, hwants⟩)
    · exact hcan
    · exact hb.canRun_of_not_wants hs hfull hcan hbefore hwants hsame

theorem place_anchorFrom_eq_iff (hb : k.Built frames) {f : Frame} (hf : f ∈ frames) {n : Nat}
    {c : Placement} (hc : f.conditions[n]? = some c) (hx : x ∈ k.sites) {index : Nat} :
    k.OnType x c.coord ∧ k.place x (f.anchorFrom n) = index ↔
      k.Hosts f index ∧ k.place index c.coord = x := by
  constructor
  · rintro ⟨htype, rfl⟩
    exact ⟨⟨hb.place_anchorFrom_mem_sites hf hx n, hb.place_anchorFrom_onType hf hx n⟩,
      hb.place_place_anchorFrom hf hc hx htype⟩
  · rintro ⟨hhosts, rfl⟩
    exact ⟨hb.place_onType hhosts.1 (hb.declares_condition hf hc).siteType,
      hb.place_anchorFrom hf hc hhosts.1 hhosts.2⟩

theorem questionsFrom_iff (hb : k.Built frames) (hs : k.Full s) {f : Frame} (hf : f ∈ frames)
    {n : Nat} {c : Placement} (hc : f.conditions[n]? = some c) (hx : x ∈ k.sites)
    (htype : k.OnType x c.coord) (hspecies : s.species? x = some c.species) :
    (∀ q ∈ f.questionsFrom n, k.occupant s x q.coord = q.species) ↔
      k.Possible s f (k.place x (f.anchorFrom n)) := by
  have hindex := hb.place_anchorFrom_mem_sites hf hx n
  obtain ⟨hlt, hget⟩ := List.getElem?_eq_some_iff.1 hc
  have hperm : (c :: f.conditions.eraseIdx n).Perm f.conditions :=
    hget ▸ List.getElem_cons_eraseIdx_perm hlt
  have hself : k.occupant s (k.place x (f.anchorFrom n)) c.coord = c.species := by
    have hplace := hb.species?_place hs hindex (hb.declares_condition hf hc).siteType
    rw [hb.place_place_anchorFrom hf hc hx htype, hspecies] at hplace
    exact (Option.some.inj hplace).symm
  have hseen : ∀ q ∈ f.conditions,
      k.occupant s x ((f.coordAt n).displacement q.coord) =
        k.occupant s (k.place x (f.anchorFrom n)) q.coord := by
    intro q hq
    have hqtype := hb.condition_hasSiteType hf hq
    have hthere : k.model.HasSiteType ((f.coordAt n).displacement q.coord) := hqtype
    apply hb.occupant_eq_of_species?_eq hs hs hx hindex hthere hqtype
    rw [hb.place_displacement_condition hf hc hx htype hq]
  unfold Frame.questionsFrom Frame.conditionsFrom
  rw [List.eraseIdx_map, List.forall_mem_map]
  constructor
  · intro hquestions
    refine ⟨⟨hindex, hb.place_anchorFrom_onType hf hx n⟩, ?_⟩
    intro q hq
    rcases List.mem_cons.1 (hperm.mem_iff.2 hq) with rfl | hrest
    · exact hself
    · rw [← hseen q hq]
      exact hquestions q hrest
  · intro hpossible q hrest
    have hq := List.mem_of_mem_eraseIdx hrest
    rw [← hpossible.conditions q hq]
    exact hseen q hq

theorem nodup_frames (hb : k.Built frames) : frames.Nodup :=
  (Model.map_number_frames_nodup hb.framed).of_map _

theorem place_inj (hb : k.Built frames) (hsep : k.Separated) {f : Frame} (hf : f ∈ frames)
    {index : Nat} (hhosts : k.Hosts f index) {i j : Nat} {a b : Placement}
    (ha : f.conditions[i]? = some a) (hbc : f.conditions[j]? = some b)
    (hspecies : a.species = b.species)
    (hplace : k.place index a.coord = k.place index b.coord) : i = j := by
  have hresolve : k.resolve index a.coord = k.resolve index b.coord := by
    rw [hb.resolve_eq_ok hhosts.1 (hb.declares_condition hf ha).siteType,
      hb.resolve_eq_ok hhosts.1 (hb.declares_condition hf hbc).siteType, hplace]
  have hpairwise := List.pairwise_iff_getElem.1 (hsep frames hb.framed f hf index hhosts)
  obtain ⟨hi, rfl⟩ := List.getElem?_eq_some_iff.1 ha
  obtain ⟨hj, rfl⟩ := List.getElem?_eq_some_iff.1 hbc
  rcases Nat.lt_trichotomy i j with hlt | heq | hlt
  · exact absurd hresolve (hpairwise i j hi hj hlt hspecies)
  · exact heq
  · exact absurd hresolve.symm (hpairwise j i hj hi hlt hspecies.symm)

end Built

theorem touches_iff {e : Event} (he : k.Meets e x) {coord : Coordinate} :
    e.touches coord = true ↔ k.OnType x coord := by
  obtain ⟨type, htype, hlayer, hsite⟩ := he
  rw [onType_iff_of_siteType htype, hlayer, hsite]
  unfold Event.touches
  rw [Bool.and_eq_true, beq_iff_eq, beq_iff_eq, and_comm, eq_comm, @eq_comm _ coord.site]

theorem mem_touched {e : Event} (he : k.Meets e x) {o : Classification.Occurrence} :
    o ∈ Classification.touched frames e ↔
      (o.frame ∈ frames ∧ o.frame.conditions[o.place]? = some o.condition) ∧
        k.OnType x o.condition.coord := by
  unfold Classification.touched
  rw [List.mem_filter, Classification.mem_occurrences, touches_iff he]

namespace Built

section Effects

variable {e : Event} {c : Classification} {es : List Effect} {r : Registration}

theorem mem_disabledBy_update (hb : k.Built frames) (hx : x ∈ k.sites) (he : k.Meets e x)
    (hc : Classification.ofEvent k.model frames e = .ok c)
    (hes : es.Perm (Synthesis.due (k.occupant s x) c.items)) :
    r ∈ k.disabledBy x es ↔ k.Wants frames x (e.before k.model.defaultSpecies) r := by
  rw [Classification.due_items hc] at hes
  rw [(disabledBy_perm hes).mem_iff, disabledBy_append, disabledBy_map_disable,
    disabledBy_map_enable, List.append_nil]
  simp only [List.mem_map, List.mem_filter, mem_touched he, beq_iff_eq]
  constructor
  · rintro ⟨o, ⟨⟨⟨hf, hget⟩, htype⟩, hspecies⟩, rfl⟩
    obtain ⟨hhosts, hplace⟩ := (hb.place_anchorFrom_eq_iff hf hget hx).1 ⟨htype, rfl⟩
    exact ⟨o.frame, hf, rfl, hhosts, o.condition, List.mem_of_getElem? hget, hplace, hspecies⟩
  · rintro ⟨f, hf, hnumber, hhosts, d, hd, hplace, hspecies⟩
    obtain ⟨n, hget⟩ := List.getElem?_of_mem hd
    obtain ⟨htype, hback⟩ := (hb.place_anchorFrom_eq_iff hf hget hx).2 ⟨hhosts, hplace⟩
    refine ⟨⟨f, n, d⟩, ⟨⟨⟨hf, hget⟩, htype⟩, hspecies⟩, ?_⟩
    exact Prod.ext hnumber.symm hback

theorem mem_enabledBy_update (hb : k.Built frames) (hs : k.Full s) (hx : x ∈ k.sites)
    (he : k.Meets e x) (hc : Classification.ofEvent k.model frames e = .ok c)
    (hes : es.Perm (Synthesis.due (k.occupant s x) c.items))
    (hafter : s.species? x = some (e.after k.model.defaultSpecies)) :
    r ∈ k.enabledBy x es ↔
      k.CanRun frames s r ∧ k.Wants frames x (e.after k.model.defaultSpecies) r := by
  rw [Classification.due_items hc] at hes
  rw [(enabledBy_perm hes).mem_iff, enabledBy_append, enabledBy_map_disable,
    enabledBy_map_enable, List.nil_append]
  simp only [List.mem_map, List.mem_filter, mem_touched he, beq_iff_eq, decide_eq_true_eq]
  constructor
  · rintro ⟨o, ⟨⟨⟨⟨hf, hget⟩, htype⟩, hspecies⟩, hquestions⟩, rfl⟩
    obtain ⟨hhosts, hplace⟩ := (hb.place_anchorFrom_eq_iff hf hget hx).1 ⟨htype, rfl⟩
    rw [hb.questionsFrom_iff hs hf hget hx htype (hspecies ▸ hafter)] at hquestions
    exact ⟨⟨o.frame, hf, rfl, hquestions⟩,
      ⟨o.frame, hf, rfl, hhosts, o.condition, List.mem_of_getElem? hget, hplace, hspecies⟩⟩
  · rintro ⟨⟨f, hf, hnumber, hpossible⟩, g, hg, hnumber', hhosts, d, hd, hplace, hspecies⟩
    obtain rfl := Model.eq_of_number_eq hb.rules hb.framed hf hg (hnumber.symm.trans hnumber')
    obtain ⟨n, hget⟩ := List.getElem?_of_mem hd
    obtain ⟨htype, hback⟩ := (hb.place_anchorFrom_eq_iff hf hget hx).2 ⟨hhosts, hplace⟩
    refine ⟨⟨f, n, d⟩, ⟨⟨⟨⟨hf, hget⟩, htype⟩, hspecies⟩, ?_⟩, Prod.ext hnumber.symm hback⟩
    rw [hb.questionsFrom_iff hs hf hget hx htype (hspecies ▸ hafter), hback]
    exact hpossible

/-- An update enables nothing twice: two conditions of one process would have to require the new
species on the one site. -/
theorem enabledBy_update_nodup (hb : k.Built frames) (hsep : k.Separated) (hx : x ∈ k.sites)
    (he : k.Meets e x) (hc : Classification.ofEvent k.model frames e = .ok c)
    (hes : es.Perm (Synthesis.due (k.occupant s x) c.items)) : (k.enabledBy x es).Nodup := by
  rw [Classification.due_items hc] at hes
  rw [(enabledBy_perm hes).nodup_iff, enabledBy_append, enabledBy_map_disable,
    enabledBy_map_enable, List.nil_append]
  apply List.Nodup.map_on
  · intro o ho p hp heq
    simp only [List.mem_filter, mem_touched he, beq_iff_eq] at ho hp
    obtain ⟨⟨⟨⟨hf, hget⟩, htype⟩, hspecies⟩, -⟩ := ho
    obtain ⟨⟨⟨⟨hg, hget'⟩, htype'⟩, hspecies'⟩, -⟩ := hp
    obtain ⟨hnumber, hback⟩ := Prod.mk.inj heq
    obtain ⟨hhosts, hplace⟩ := (hb.place_anchorFrom_eq_iff hf hget hx).1 ⟨htype, hback⟩
    obtain ⟨-, hplace'⟩ := (hb.place_anchorFrom_eq_iff hg hget' hx).1 ⟨htype', rfl⟩
    have hframe := Model.eq_of_number_eq hb.rules hb.framed hf hg hnumber
    obtain ⟨f, n, a⟩ := o
    obtain ⟨g, n', b⟩ := p
    obtain rfl : f = g := hframe
    obtain rfl : n = n' := hb.place_inj hsep hf hhosts hget hget' (hspecies.trans hspecies'.symm)
      (hplace.trans hplace'.symm)
    obtain rfl : a = b := Option.some.inj (hget.symm.trans hget')
    rfl
  · exact (((Classification.occurrences_nodup hb.nodup_frames).filter _).filter _).filter _

theorem items_hasSiteType (hb : k.Built frames)
    (hc : Classification.ofEvent k.model frames e = .ok c) {i : Item Effect}
    (hi : i ∈ c.items) :
    k.model.HasSiteType i.payload.location ∧
      ∀ q ∈ i.questions, k.model.HasSiteType q.coord := by
  have hknows := Model.knowsItem_of_mem_items hb.rules hb.framed hc hi
  refine ⟨hb.rules.hasSiteType_iff.2 hknows.location.siteType, ?_⟩
  intro q hq
  exact hb.rules.hasSiteType_iff.2 (hknows.questions q hq).1.siteType

end Effects

end Built

/-- What an update does when it succeeds. -/
theorem update_eq_ok_iff {direction : Direction} {species : String} :
    k.update direction species x s = .ok s' ↔ ∃ type u es, k.siteType x = .ok type ∧
      k.plan.update? ⟨direction, species, type.layer, type.site⟩ = some u ∧
      s.species? x = some u.before ∧
      k.effectsOf (s.withSpecies x u.after) x u.tree = .ok es ∧
      k.applyAll x es (s.withSpecies x u.after) = .ok s' := by
  unfold update
  rw [bind_eq_ok_iff]
  refine exists_congr fun type => ?_
  dsimp only
  cases k.plan.update? ⟨direction, species, type.layer, type.site⟩ with
  | none => simp
  | some u =>
    simp only [bind_eq_ok_iff, guard_eq_ok_iff, speciesAt_eq_ok_iff, setSpecies_eq_ok_iff]
    constructor
    · rintro ⟨htype, found, hfound, hbefore, s₁, ⟨-, rfl⟩, es, hes, h⟩
      exact ⟨u, es, htype, rfl, not_not.1 hbefore ▸ hfound, hes, h⟩
    · rintro ⟨_, es, htype, ⟨⟩, hbefore, hes, h⟩
      exact ⟨htype, u.before, hbefore, not_not.2 rfl, _, ⟨⟨_, hbefore⟩, rfl⟩, es, hes, h⟩

theorem Built.mem_events (hb : k.Built frames) {e : Event} (hx : x ∈ k.sites)
    (hmeets : k.Meets e x) (hspecies : e.species ∈ k.model.species)
    (hne : e.species ≠ k.model.defaultSpecies) : e ∈ k.model.events := by
  obtain ⟨type, htype, hlayer, hsite⟩ := hmeets
  obtain ⟨type', -, htype', hmem⟩ := hb.exists_siteType hx
  obtain rfl := Except.ok.inj (htype.symm.trans htype')
  obtain ⟨direction, species, layer, site⟩ := e
  obtain rfl : type.layer = layer := hlayer
  obtain rfl : type.site = site := hsite
  exact Model.mem_events hspecies hne hmem

theorem Built.update_eq_ok (hb : k.Built frames) (hsep : k.Separated) (hs : k.Faithful frames s)
    {e : Event} (hx : x ∈ k.sites) (hmeets : k.Meets e x)
    (hspecies : e.species ∈ k.model.species) (hne : e.species ≠ k.model.defaultSpecies)
    (hbefore : s.species? x = some (e.before k.model.defaultSpecies)) :
    ∃ s', k.update e.direction e.species x s = .ok s' ∧ k.Faithful frames s' ∧
      ∀ t, s'.species? t =
        if t = x then some (e.after k.model.defaultSpecies) else s.species? t := by
  obtain ⟨c, hc, hupdate⟩ := hb.plan.update?_eq (hb.mem_events hx hmeets hspecies hne)
  have hchange := Event.before_ne_after hne
  have hchanged := KernelState.species?_withSpecies hbefore (e.after k.model.defaultSpecies)
  let changed := s.withSpecies x (e.after k.model.defaultSpecies)
  have hfull : k.Full changed := hs.full.withSpecies x _
  have hafter : changed.species? x = some (e.after k.model.defaultSpecies) := by
    rw [hchanged, if_pos rfl]
  obtain ⟨es, hes, hperm⟩ := hb.effectsOf_synthesize hfull hx
    (fun i hi => (hb.items_hasSiteType hc hi).2)
  have hdisabled : ∀ r, r ∈ k.disabledBy x es ↔
      k.Wants frames x (e.before k.model.defaultSpecies) r :=
    fun r => hb.mem_disabledBy_update hx hmeets hc hperm
  have henabled : ∀ r, r ∈ k.enabledBy x es ↔ k.CanRun frames changed r ∧
      k.Wants frames x (e.after k.model.defaultSpecies) r :=
    fun r => hb.mem_enabledBy_update hfull hx hmeets hc hperm hafter
  have hresolve : ∀ f ∈ es, k.resolve x f.location = .ok (k.place x f.location) := by
    intro f hf
    obtain ⟨i, hi, -, rfl⟩ := (Synthesis.mem_due _).1 (hperm.mem_iff.1 hf)
    exact hb.resolve_eq_ok hx (hb.items_hasSiteType hc hi).1
  -- what is enabled was not possible before, so it is not in the list
  have hnew : ∀ r ∈ k.enabledBy x es, r ∉ changed.listed := by
    intro r hr hlisted
    have hwants := ((henabled r).1 hr).2
    exact hchange (hb.eq_of_wants hs.full ((hs.listed r).1 hlisted) hwants hbefore).symm
  have hapart : ∀ r ∈ k.enabledBy x es, r ∉ k.disabledBy x es := by
    intro r hr hdis
    exact hchange (hb.eq_of_wants hfull ((henabled r).1 hr).1 ((hdisabled r).1 hdis) hafter)
  obtain ⟨s', hs', hocc, honce, hlisted⟩ := applyAll_eq_ok hresolve (s := changed) hs.once
    (hb.enabledBy_update_nodup hsep hx hmeets hc hperm) hnew hapart
  refine ⟨s', ?_, ⟨?_, honce, ?_⟩, ?_⟩
  · have hevent := (Classification.ofEvent_eq_ok hc).1
    obtain ⟨type, htype, hlayer, hsite⟩ := hmeets
    rw [update_eq_ok_iff]
    refine ⟨type, _, es, htype, by rw [hlayer, hsite]; exact hupdate, ?_⟩
    rw [Classification.update, hevent]
    exact ⟨hbefore, hes, hs'⟩
  · exact hfull.of_occupation hocc
  · intro r
    rw [canRun_congr hocc, hb.canRun_withSpecies_iff hs.full hbefore hchange, hlisted, henabled,
      hdisabled, ← hs.listed r]
    rfl
  · intro t
    rw [← hchanged t]
    unfold KernelState.species?
    rw [hocc]

end Kernel
end LatticeKinetics
