import LatticeKinetics.Proofs.KernelChecks
import LatticeKinetics.Proofs.KernelRuns

/-! Touching up as a repair. Whatever is on the sites and whatever is listed, touching a site up
makes right what the list says of the processes that can have their anchor there, and nothing else
changes. No call ever lists a process on a site that is not of its anchor's type, so touching all
sites up makes the whole list right after any calls, those behind its back included. -/

namespace LatticeKinetics

namespace Kernel

/-- The anchor of the process is of the type of the site. -/
def AnchoredOn (k : Kernel) (number index : Nat) : Prop :=
  ∃ q anchor, k.model.process? number = some q ∧ q.anchor? = some anchor ∧
    k.OnType index anchor.coord

structure Regular (k : Kernel) (s : KernelState) : Prop where
  full : k.Full s
  once : s.listed.Nodup

/-- Every listed process is on a site of its anchor's type, whether it is possible there or not. -/
structure Settled (k : Kernel) (s : KernelState) : Prop extends k.Regular s where
  anchored : ∀ number index, s.canDo number index = true → k.AnchoredOn number index

variable {k : Kernel} {frames : List Frame} {s s' : KernelState} {index : Nat}

theorem mem_sites_of_siteType {type : SiteConstant} (h : k.siteType index = .ok type) :
    index ∈ k.sites := by
  unfold siteType at h
  simp only [bind_eq_ok_iff, mapError_eq_ok_iff] at h
  obtain ⟨site, hsite, -⟩ := h
  exact Built.mem_sites_of_siteAt hsite

theorem place_of_resolve {origin : Nat} {coord : Coordinate}
    (h : k.resolve origin coord = .ok index) : k.place origin coord = index := by
  unfold place
  rw [h]
  rfl

theorem Settled.anchoredOn (hs : k.Settled s) {r : Registration} (hr : r ∈ s.listed) :
    k.AnchoredOn r.1 r.2 :=
  hs.anchored r.1 r.2 (canDo_iff.2 hr)

theorem Settled.of_listed (hs : k.Settled s) (hfull : k.Full s') (honce : s'.listed.Nodup)
    (h : ∀ r ∈ s'.listed, r ∈ s.listed ∨ k.AnchoredOn r.1 r.2) : k.Settled s' := by
  refine ⟨⟨hfull, honce⟩, ?_⟩
  intro number index hlisted
  rcases h _ (canDo_iff.1 hlisted) with hr | hr
  · exact hs.anchoredOn hr
  · exact hr

theorem settled_start (k : Kernel) : k.Settled k.start :=
  ⟨⟨k.full_start, List.nodup_nil⟩, by simp [start, KernelState.canDo]⟩

/-! One effect and one call at a time: what is listed stays on sites of its anchor's type. -/

theorem Settled.apply (hs : k.Settled s) {origin : Nat} {e : Effect}
    (he : k.AnchoredOn e.process (k.place origin e.location))
    (h : k.apply origin e s = .ok s') : k.Settled s' := by
  have hfull := hs.full.of_occupation (apply_occupation h)
  unfold Kernel.apply at h
  rw [bind_eq_ok_iff] at h
  obtain ⟨target, htarget, h⟩ := h
  rw [place_of_resolve htarget] at he
  cases e with
  | enable process location =>
    unfold KernelState.add at h
    obtain ⟨hfresh, h⟩ := ite_error_eq_ok_iff.1 h
    obtain rfl := Except.ok.inj h
    rw [List.contains_iff_mem] at hfresh
    refine hs.of_listed hfull (hs.once.append (List.nodup_singleton _) (by simpa using hfresh)) ?_
    intro r hr
    rcases List.mem_append.1 hr with hr | hr
    · exact .inl hr
    · obtain rfl := List.mem_singleton.1 hr
      exact .inr he
  | disable process location =>
    obtain rfl := pure_eq_ok_iff.1 h
    exact hs.of_listed hfull (hs.once.filter _) fun r hr => .inl (List.mem_of_mem_filter hr)

theorem Settled.applyAll (hs : k.Settled s) {origin : Nat} {es : List Effect}
    (hes : ∀ e ∈ es, k.AnchoredOn e.process (k.place origin e.location))
    (h : k.applyAll origin es s = .ok s') : k.Settled s' := by
  induction es generalizing s with
  | nil => exact Except.ok.inj h ▸ hs
  | cons e es ih =>
    rw [Kernel.applyAll, bind_eq_ok_iff] at h
    obtain ⟨s₁, hs₁, h⟩ := h
    obtain ⟨he, hes⟩ := List.forall_mem_cons.1 hes
    exact ih (hs.apply he hs₁) hes h

theorem Settled.withSpecies (hs : k.Settled s) (index : Nat) (species : String) :
    k.Settled (s.withSpecies index species) :=
  hs.of_listed (hs.full.withSpecies index species) hs.once fun _ hr => .inl hr

theorem exists_item_of_effectsOf {items : List (Item Effect)} {es : List Effect}
    (h : k.effectsOf s index (.synthesize items) = .ok es) {e : Effect} (he : e ∈ es) :
    ∃ i ∈ items, i.payload = e := by
  unfold effectsOf at h
  rw [bind_eq_ok_iff] at h
  obtain ⟨_, -, h⟩ := h
  obtain rfl := pure_eq_ok_iff.1 h
  have hdue := (Tree.fired_synthesize_perm (k.occupant s index) items).mem_iff.1 he
  obtain ⟨i, hi, -, hpayload⟩ := (Synthesis.mem_due _).1 hdue
  exact ⟨i, hi, hpayload⟩

namespace Built

theorem anchors_iff (hb : k.Built frames) {number : Nat} :
    k.Anchors frames (number, index) ↔ k.AnchoredOn number index := by
  constructor
  · rintro ⟨f, hf, hnumber, -, htype⟩
    obtain rfl : number = f.number := hnumber
    obtain ⟨q, hq, hof⟩ := Model.exists_process hb.rules hb.framed hf
    obtain ⟨anchor, hanchor, -⟩ := Frame.ofProcess_eq_ok_iff.1 hof
    have hsite := Frame.anchorCoord_siteType hof hanchor
    exact ⟨q, anchor, hq, hanchor, (onType_congr hsite.1 hsite.2).1 htype⟩
  · rintro ⟨q, anchor, hq, hanchor, htype⟩
    obtain ⟨f, hf, hof⟩ := Model.exists_frame hb.framed hq
    obtain rfl := Frame.number_ofProcess hof
    have hsite := Frame.anchorCoord_siteType hof hanchor
    have htype : k.OnType index f.anchorCoord := (onType_congr hsite.1 hsite.2).2 htype
    obtain ⟨type, hindex, -⟩ := id htype
    exact ⟨f, hf, rfl, mem_sites_of_siteType hindex, htype⟩

theorem anchoredOn_anchorFrom (hb : k.Built frames) {f : Frame} (hf : f ∈ frames)
    (hi : index ∈ k.sites) (n : Nat) : k.AnchoredOn f.number (k.place index (f.anchorFrom n)) :=
  hb.anchors_iff.1 ⟨f, hf, rfl, hb.place_anchorFrom_mem_sites hf hi n,
    hb.place_anchorFrom_onType hf hi n⟩

theorem anchoredOn_item (hb : k.Built frames) {e : Event} {c : Classification}
    (hc : Classification.ofEvent k.model frames e = .ok c) {i : Item Effect} (hi : i ∈ c.items)
    (hindex : index ∈ k.sites) :
    k.AnchoredOn i.payload.process (k.place index i.payload.location) := by
  obtain ⟨-, henables, hdisables⟩ := Classification.ofEvent_eq_ok hc
  have htouched : ∀ o ∈ Classification.touched frames e,
      k.AnchoredOn o.frame.number (k.place index (o.frame.anchorFrom o.place)) := by
    intro o ho
    have hf := (Classification.mem_occurrences.1 (List.mem_of_mem_filter ho)).1
    exact hb.anchoredOn_anchorFrom hf hindex o.place
  unfold Classification.items at hi
  rw [henables, hdisables, List.map_map, List.map_map] at hi
  rcases List.mem_append.1 hi with hi | hi
  · obtain ⟨o, ho, rfl⟩ := List.mem_map.1 hi
    exact htouched o (List.mem_of_mem_filter ho)
  · obtain ⟨o, ho, rfl⟩ := List.mem_map.1 hi
    exact htouched o (List.mem_of_mem_filter ho)

theorem update_settled (hb : k.Built frames) (hs : k.Settled s) {direction : Direction}
    {species : String} (h : k.update direction species index s = .ok s') : k.Settled s' := by
  obtain ⟨type, u, es, htype, hu, -, hes, h⟩ := update_eq_ok_iff.1 h
  obtain ⟨c, hc, hupdate⟩ := hb.plan.exists_ofEvent (List.mem_of_find?_eq_some hu)
  rw [hupdate] at hes
  refine (hs.withSpecies index u.after).applyAll ?_ h
  intro e he
  obtain ⟨i, hi, rfl⟩ := exists_item_of_effectsOf hes he
  exact hb.anchoredOn_item hc hi (mem_sites_of_siteType htype)

theorem renewed_settled (hb : k.Built frames) (hs : k.Settled s) {indices : List Nat}
    (h : k.Renewed frames indices s s') : k.Settled s' := by
  refine hs.of_listed (hs.full.of_occupation h.occupation) h.once ?_
  intro r hr
  by_cases hrenewed : r.2 ∈ indices ∧ k.Anchors frames r
  · exact .inr (hb.anchors_iff.1 hrenewed.2)
  · exact .inl ((h.kept r hrenewed).1 hr)

theorem touchup_settled (hb : k.Built frames) (hs : k.Settled s)
    (h : k.touchup index s = .ok s') : k.Settled s' := by
  have hi : index ∈ k.sites := by
    obtain ⟨type, -, -, htype, -⟩ := touchup_eq_ok_iff.1 h
    exact mem_sites_of_siteType htype
  obtain ⟨t, ht, hrenewed⟩ := hb.touchup_eq_ok hs.full hs.once hi
  obtain rfl := Except.ok.inj (ht.symm.trans h)
  exact hb.renewed_settled hs hrenewed

theorem touchupAll_settled (hb : k.Built frames) (hs : k.Settled s)
    (h : k.touchupAll s = .ok s') : k.Settled s' := by
  obtain ⟨t, ht, hrenewed⟩ := hb.touchupEach_eq_ok (fun _ hi => hi) hs.full hs.once
  obtain rfl := Except.ok.inj (ht.symm.trans h)
  exact hb.renewed_settled hs hrenewed

theorem perform_settled (hb : k.Built frames) (hs : k.Settled s) {c : KernelCall}
    (h : k.perform s c = .ok s') : k.Settled s' := by
  cases c with
  | reset => exact hb.touchupAll_settled k.settled_start h
  | update direction species index => exact hb.update_settled hs h
  | touchup index => exact hb.touchup_settled hs h
  | touchupAll => exact hb.touchupAll_settled hs h
  | run number index => exact run_keeps (fun hs h => hb.update_settled hs h) hs h
  | overwrite index species => exact (setSpecies_eq_ok_iff.1 h).2 ▸ hs.withSpecies index species

theorem calls_settled (hb : k.Built frames) (hs : k.Settled s) {calls : List KernelCall}
    (h : calls.foldlM k.perform s = .ok s') : k.Settled s' := by
  induction calls generalizing s with
  | nil => exact Except.ok.inj h ▸ hs
  | cons c calls ih =>
    rw [List.foldlM_cons, bind_eq_ok_iff] at h
    obtain ⟨s₁, hs₁, h⟩ := h
    exact ih (hb.perform_settled hs hs₁) h

end Built

/-! What touching up makes of a state. -/

theorem exists_overwrites_eq_ok (hs : k.Full s) {writes : List (Nat × String)}
    (hwrites : ∀ w ∈ writes, w.1 ∈ k.sites) :
    ∃ s', (writes.map fun w => .overwrite w.1 w.2).foldlM k.perform s = .ok s' := by
  induction writes generalizing s with
  | nil => exact ⟨s, rfl⟩
  | cons w writes ih =>
    obtain ⟨hw, hwrites⟩ := List.forall_mem_cons.1 hwrites
    obtain ⟨found, hfound⟩ := hs.exists_species?.2 hw
    obtain ⟨s', hs'⟩ := ih (hs.withSpecies w.1 w.2) hwrites
    refine ⟨s', ?_⟩
    rw [List.map_cons, List.foldlM_cons, bind_eq_ok_iff]
    exact ⟨_, setSpecies_eq_ok_iff.2 ⟨⟨found, hfound⟩, rfl⟩, hs'⟩

namespace Built

theorem canRun_iff_passes (hb : k.Built frames) (hs : k.Full s) {f : Frame} (hf : f ∈ frames)
    (hhosts : k.Hosts f index) :
    k.CanRun frames s (f.number, index) ↔ k.Passes s index f.anchorCheck := by
  rw [hb.passes_anchorCheck hf hhosts.1]
  have hseen : ∀ c ∈ f.conditions,
      s.species? (k.place index c.coord) = some (k.occupant s index c.coord) :=
    fun c hc => hb.species?_place hs hhosts.1 (hb.condition_hasSiteType hf hc)
  constructor
  · rintro ⟨g, hg, hnumber, -, hconditions⟩ c hc
    obtain rfl := Model.eq_of_number_eq hb.rules hb.framed hf hg hnumber
    rw [hseen c hc, hconditions c hc]
  · intro hpasses
    refine ⟨f, hf, rfl, hhosts, ?_⟩
    intro c hc
    exact Option.some.inj ((hseen c hc).symm.trans (hpasses c hc))

theorem renewed_canDo_iff (hb : k.Built frames) (hs : k.Full s)
    (h : k.Renewed frames [index] s s') {number : Nat} (hanchored : k.AnchoredOn number index) :
    ∃ check, k.plan.anchorCheck? number = some check ∧ k.Resolves index check ∧
      (s'.canDo number index = true ↔ k.Passes s index check) := by
  have hanchors := hb.anchors_iff.2 hanchored
  obtain ⟨f, hf, hnumber, hhosts⟩ := id hanchors
  obtain rfl : number = f.number := hnumber
  refine ⟨f.anchorCheck, hb.plan.anchorCheck?_number hb.rules hb.framed hf,
    hb.resolves hhosts.1 (hb.anchorCheck_hasSiteType hf), ?_⟩
  rw [canDo_iff, h.renewed _ (List.mem_singleton.2 rfl) hanchors]
  exact hb.canRun_iff_passes hs hf hhosts

theorem renewed_canDo_eq (hb : k.Built frames) (h : k.Renewed frames [index] s s')
    {number other : Nat} (hother : ¬(other = index ∧ k.AnchoredOn number index)) :
    s'.canDo number other = s.canDo number other := by
  rw [Bool.eq_iff_iff, canDo_iff, canDo_iff]
  refine h.kept _ ?_
  rintro ⟨hmem, hanchors⟩
  obtain rfl : other = index := List.mem_singleton.1 hmem
  exact hother ⟨rfl, hb.anchors_iff.1 hanchors⟩

theorem renewed_sites_faithful (hb : k.Built frames) (hs : k.Settled s)
    (h : k.Renewed frames k.sites s s') : k.Faithful frames s' :=
  h.faithful_of_sites hs.full fun _ hr => hb.anchors_iff.2 (hs.anchoredOn hr)

theorem available_eq_possible (hb : k.Built frames) (hs : k.Faithful frames s) :
    s.available = k.possible s ∧ k.Sighted s :=
  ⟨(hb.faithful_iff hs.full).1 hs, hb.sighted hs.full⟩

end Built
end Kernel

open Kernel

/-- From every state, whatever its sites hold and whatever it lists, touching a site up changes what
the list says of the processes that have their anchor on the site's type, there, and nothing else:
it lists those whose check passes. Where everything listed is on sites of its anchor's type,
touching all sites up makes the list what working it out anew gives; so it does after any calls,
overwriting included, and so does emptying the lattice. -/
theorem touchup_repairs_every_state {d : Draft} {m : Model} {p : Plan} {extents : List Nat}
    {k : Kernel} (hd : d.build = .ok m) (hp : m.compile = .ok p)
    (hk : Kernel.ofExtents m p extents = .ok k) :
    (∀ s, k.Regular s → ∀ index ∈ k.sites, ∃ s', k.touchup index s = .ok s' ∧ k.Regular s' ∧
        s'.occupation = s.occupation ∧
        (∀ number, k.AnchoredOn number index →
          ∃ check, p.anchorCheck? number = some check ∧ k.Resolves index check ∧
            (s'.canDo number index = true ↔ k.Passes s index check)) ∧
        ∀ number other, ¬(other = index ∧ k.AnchoredOn number index) →
          s'.canDo number other = s.canDo number other) ∧
      (∀ s, k.Settled s → ∃ s', k.touchupAll s = .ok s' ∧ s'.occupation = s.occupation ∧
        s'.available = k.possible s' ∧ k.Sighted s') ∧
      (∀ s (writes : List (Nat × String)), k.Settled s → (∀ w ∈ writes, w.1 ∈ k.sites) →
        ∃ s', (writes.map fun w => .overwrite w.1 w.2).foldlM k.perform s = .ok s') ∧
      (k.Settled k.start ∧ ∀ s (calls : List KernelCall) s', k.Settled s →
        calls.foldlM k.perform s = .ok s' → k.Settled s') ∧
      ∀ s, ∃ s', k.perform s .reset = .ok s' ∧ s'.occupation = k.start.occupation ∧
        s'.available = k.possible s' ∧ k.Sighted s' := by
  obtain ⟨-, rfl, frames, hb⟩ := Kernel.ofExtents_eq_ok hd hp hk
  have hall : ∀ s, k.Settled s → ∃ s', k.touchupAll s = .ok s' ∧ s'.occupation = s.occupation ∧
      s'.available = k.possible s' ∧ k.Sighted s' := by
    intro s hs
    obtain ⟨s', hs', hrenewed⟩ := hb.touchupEach_eq_ok (fun _ hi => hi) hs.full hs.once
    exact ⟨s', hs', hrenewed.occupation,
      hb.available_eq_possible (hb.renewed_sites_faithful hs hrenewed)⟩
  refine ⟨?_, hall, fun s writes hs => exists_overwrites_eq_ok hs.full,
    ⟨k.settled_start, fun s calls s' hs => hb.calls_settled hs⟩,
    fun _ => hall k.start k.settled_start⟩
  intro s hs index hi
  obtain ⟨s', hs', hrenewed⟩ := hb.touchup_eq_ok hs.full hs.once hi
  exact ⟨s', hs', ⟨hs.full.of_occupation hrenewed.occupation, hrenewed.once⟩,
    hrenewed.occupation, fun _ => hb.renewed_canDo_iff hs.full hrenewed,
    fun _ _ => hb.renewed_canDo_eq hrenewed⟩

/-- On one cell both conditions of the adsorption of a pair are on one site. There is rust on the
bridge site, so the swap of its oxygen is no longer listed; what is listed for a process that there
is not stays. -/
theorem touchup_repairs_rusty_state :
    ∃ m p k s', Samples.carbonMonoxideOxidation.build = .ok m ∧ m.compile = .ok p ∧
      Kernel.ofExtents m p [1, 1] = .ok k ∧ ¬k.Separated ∧
      k.Regular ⟨["rust", "empty"], [(8, 1), (99, 7)]⟩ ∧
      k.touchup 1 ⟨["rust", "empty"], [(8, 1), (99, 7)]⟩ = .ok s' ∧
      s'.occupation = ["rust", "empty"] ∧ s'.canDo 8 1 = false ∧ s'.canDo 99 7 = true := by
  have h : (do
      let m ← Samples.carbonMonoxideOxidation.build.toOption
      let p ← m.compile.toOption
      let k ← (Kernel.ofExtents m p [1, 1]).toOption
      let q ← k.model.process? 8
      let anchor ← q.anchor?
      let check ← p.anchorCheck? 8
      guard (k.mapping.volume = 2 ∧ ¬k.Separated ∧ 1 ∈ k.sites ∧ k.OnType 1 anchor.coord ∧
        ¬k.Passes ⟨["rust", "empty"], [(8, 1), (99, 7)]⟩ 1 check)) = some () := by
    decide +kernel
  simp only [Option.bind_eq_bind, Option.bind_eq_some_iff, toOption_eq_some_iff,
    Option.guard_eq_some'] at h
  obtain ⟨m, hd, p, hp, k, hk, q, hq, anchor, hanchor, check, hcheck, hvolume, hmeet, hi, htype,
    hfails⟩ := h
  have hregular : k.Regular ⟨["rust", "empty"], [(8, 1), (99, 7)]⟩ := ⟨hvolume.symm, by decide⟩
  obtain ⟨s', hs', -, hoccupation, hlisted, hkept⟩ :=
    (touchup_repairs_every_state hd hp hk).1 _ hregular 1 hi
  obtain ⟨check', hcheck', -, hiff⟩ := hlisted 8 ⟨q, anchor, hq, hanchor, htype⟩
  obtain rfl := Option.some.inj (hcheck.symm.trans hcheck')
  refine ⟨m, p, k, s', hd, hp, hk, hmeet, hregular, hs', hoccupation, ?_, ?_⟩
  · rw [← Bool.not_eq_true, hiff]
    exact hfails
  · rw [hkept 99 7 (by simp)]
    decide

end LatticeKinetics
