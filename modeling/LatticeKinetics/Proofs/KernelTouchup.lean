import LatticeKinetics.Proofs.KernelListing

/-! Which processes are possible, and what touching a site up does to the list. Touching up needs
nothing of the list but that it has no repetitions: afterwards the site is as it should be and
everything else is as it was. -/

namespace LatticeKinetics

namespace Kernel

def Hosts (k : Kernel) (f : Frame) (index : Nat) : Prop :=
  index ∈ k.sites ∧ k.OnType index f.anchorCoord

instance (k : Kernel) (f : Frame) (index : Nat) : Decidable (k.Hosts f index) :=
  inferInstanceAs (Decidable (_ ∧ _))

structure Possible (k : Kernel) (s : KernelState) (f : Frame) (index : Nat) : Prop where
  hosts : k.Hosts f index
  conditions : ∀ c ∈ f.conditions, k.occupant s index c.coord = c.species

def Anchors (k : Kernel) (frames : List Frame) (r : Registration) : Prop :=
  ∃ f ∈ frames, r.1 = f.number ∧ k.Hosts f r.2

def CanRun (k : Kernel) (frames : List Frame) (s : KernelState) (r : Registration) : Prop :=
  ∃ f ∈ frames, r.1 = f.number ∧ k.Possible s f r.2

/-- The list holds exactly the possible processes, each once. -/
structure Faithful (k : Kernel) (frames : List Frame) (s : KernelState) : Prop where
  full : k.Full s
  once : s.listed.Nodup
  listed : ∀ r, r ∈ s.listed ↔ k.CanRun frames s r

/-- The list of `after` is that of `before`, worked out anew for some sites. -/
structure Renewed (k : Kernel) (frames : List Frame) (indices : List Nat)
    (before after : KernelState) : Prop where
  occupation : after.occupation = before.occupation
  once : after.listed.Nodup
  renewed : ∀ r, r.2 ∈ indices → k.Anchors frames r →
    (r ∈ after.listed ↔ k.CanRun frames before r)
  kept : ∀ r, ¬(r.2 ∈ indices ∧ k.Anchors frames r) → (r ∈ after.listed ↔ r ∈ before.listed)

variable {k : Kernel} {frames : List Frame} {s s' : KernelState}

theorem CanRun.anchors {r : Registration} (h : k.CanRun frames s r) : k.Anchors frames r := by
  obtain ⟨f, hf, hnumber, hpossible⟩ := h
  exact ⟨f, hf, hnumber, hpossible.hosts⟩

theorem canRun_congr (h : s'.occupation = s.occupation) (r : Registration) :
    k.CanRun frames s' r ↔ k.CanRun frames s r := by
  obtain ⟨occupation, listed⟩ := s
  obtain ⟨occupation', listed'⟩ := s'
  obtain rfl : occupation' = occupation := h
  constructor <;> exact fun ⟨f, hf, hnumber, hhosts, hc⟩ => ⟨f, hf, hnumber, hhosts, hc⟩

theorem onType_iff_of_siteType {index : Nat} {type : SiteConstant} {coord : Coordinate}
    (h : k.siteType index = .ok type) :
    k.OnType index coord ↔ type.layer = coord.layer ∧ type.site = coord.site := by
  constructor
  · rintro ⟨type', h', hnames⟩
    obtain rfl := Except.ok.inj (h.symm.trans h')
    exact hnames
  · exact fun hnames => ⟨type, h, hnames⟩

theorem mem_anchored {index : Nat} {type : SiteConstant} (hi : index ∈ k.sites)
    (h : k.siteType index = .ok type) {f : Frame} :
    f ∈ type.anchored frames ↔ f ∈ frames ∧ k.Hosts f index := by
  unfold SiteConstant.anchored Hosts
  rw [List.mem_filter, onType_iff_of_siteType h, Bool.and_eq_true, beq_iff_eq, beq_iff_eq]
  constructor
  · rintro ⟨hf, hsite, hlayer⟩
    exact ⟨hf, hi, hlayer.symm, hsite.symm⟩
  · rintro ⟨hf, -, hlayer, hsite⟩
    exact ⟨hf, hsite.symm, hlayer.symm⟩

namespace Built

theorem checksOn_eq (hb : k.Built frames) (type : SiteConstant) :
    k.checksOn type = (type.anchored frames).map (·.anchorCheck) := by
  let checkOf (number : Nat) : Option Check :=
    (k.plan.anchorCheck? number).filter fun c =>
      c.origin.layer == type.layer && c.origin.site == type.site
  calc k.checksOn type
    _ = (k.model.numberedProcesses.map (·.1)).filterMap checkOf := by
        rw [List.filterMap_map]
        rfl
    _ = frames.filterMap fun f => checkOf f.number := by
        rw [Model.map_number_frames hb.framed, List.filterMap_map]
        rfl
    _ = frames.filterMap fun f =>
          if f.anchorCoord.site == type.site && f.anchorCoord.layer == type.layer then
            some f.anchorCheck
          else none := by
        apply List.filterMap_congr
        intro f hf
        unfold checkOf
        rw [hb.plan.anchorCheck?_number hb.rules hb.framed hf, Option.filter_some, Bool.and_comm]
        rfl
    _ = (type.anchored frames).map (·.anchorCheck) := by
        unfold SiteConstant.anchored
        rw [← List.filterMap_eq_map, List.filterMap_filter]
        rfl

theorem holds_anchorCheck (hb : k.Built frames) {f : Frame} (hf : f ∈ frames) {index : Nat} :
    k.holds s index f.anchorCheck = true ↔
      ∀ c ∈ f.conditions, k.occupant s index c.coord = c.species := by
  unfold holds Frame.anchorCheck
  rw [hb.conditionsFrom_anchor hf, List.all_eq_true]
  simp only [beq_iff_eq]

theorem possibleAt_eq (hb : k.Built frames) {index : Nat} {type : SiteConstant}
    (h : k.siteType index = .ok type) :
    k.possibleAt s index =
      (((type.anchored frames).map (·.anchorCheck)).filter (k.holds s index)).map
        fun c => (c.process, index) := by
  unfold possibleAt
  rw [h]
  dsimp only
  rw [hb.checksOn_eq]

theorem mem_possibleAt (hb : k.Built frames) {index : Nat} (hi : index ∈ k.sites)
    {r : Registration} :
    r ∈ k.possibleAt s index ↔ r.2 = index ∧ k.CanRun frames s r := by
  obtain ⟨type, -, htype, -⟩ := hb.exists_siteType hi
  rw [hb.possibleAt_eq htype]
  simp only [List.mem_map, List.mem_filter]
  constructor
  · rintro ⟨c, ⟨⟨f, hanchored, rfl⟩, hholds⟩, rfl⟩
    obtain ⟨hf, hhosts⟩ := (mem_anchored hi htype).1 hanchored
    exact ⟨rfl, f, hf, rfl, hhosts, (hb.holds_anchorCheck hf).1 hholds⟩
  · rintro ⟨rfl, f, hf, hnumber, hhosts, hconditions⟩
    refine ⟨f.anchorCheck, ⟨⟨f, (mem_anchored hi htype).2 ⟨hf, hhosts⟩, rfl⟩,
      (hb.holds_anchorCheck hf).2 hconditions⟩, ?_⟩
    exact Prod.ext hnumber.symm rfl

theorem anchored_number_nodup (hb : k.Built frames) (type : SiteConstant) :
    ((type.anchored frames).map (·.number)).Nodup :=
  (Model.map_number_frames_nodup hb.framed).sublist (List.filter_sublist.map _)

theorem possibleAt_nodup (hb : k.Built frames) {index : Nat} (hi : index ∈ k.sites) :
    (k.possibleAt s index).Nodup := by
  obtain ⟨type, -, htype, -⟩ := hb.exists_siteType hi
  rw [hb.possibleAt_eq htype]
  apply List.Nodup.of_map Prod.fst
  rw [List.map_map]
  refine (hb.anchored_number_nodup type).sublist ?_
  have hsublist := (List.filter_sublist (p := k.holds s index)
    (l := (type.anchored frames).map (·.anchorCheck))).map (·.process)
  rw [List.map_map] at hsublist
  exact hsublist

theorem mem_flatMap_possibleAt (hb : k.Built frames) {r : Registration} :
    r ∈ k.sites.flatMap (k.possibleAt s) ↔ k.CanRun frames s r := by
  rw [List.mem_flatMap]
  constructor
  · rintro ⟨index, hi, hr⟩
    obtain ⟨rfl, hpossible⟩ := (hb.mem_possibleAt hi).1 hr
    exact hpossible
  · rintro ⟨f, hf, hnumber, hpossible⟩
    have hi := hpossible.hosts.1
    exact ⟨r.2, hi, (hb.mem_possibleAt hi).2 ⟨rfl, f, hf, hnumber, hpossible⟩⟩

theorem flatMap_possibleAt_nodup (hb : k.Built frames) :
    (k.sites.flatMap (k.possibleAt s)).Nodup := by
  apply List.nodup_flatMap.2
  refine ⟨fun index hi => hb.possibleAt_nodup hi, ?_⟩
  refine List.Nodup.pairwise_of_forall_ne (List.nodup_range' ..) ?_
  intro i hi j hj hij r hri hrj
  exact hij (((hb.mem_possibleAt hi).1 hri).1.symm.trans ((hb.mem_possibleAt hj).1 hrj).1)

/-- A list is faithful exactly when, sorted, it is what recomputing gives. -/
theorem faithful_iff (hb : k.Built frames) (hs : k.Full s) :
    k.Faithful frames s ↔ s.available = k.possible s := by
  unfold KernelState.available possible
  rw [Registration.sort_eq_sort_iff]
  constructor
  · intro h
    rw [List.perm_ext_iff_of_nodup h.once hb.flatMap_possibleAt_nodup]
    exact fun r => (h.listed r).trans hb.mem_flatMap_possibleAt.symm
  · intro h
    exact ⟨hs, h.nodup_iff.2 hb.flatMap_possibleAt_nodup,
      fun r => h.mem_iff.trans hb.mem_flatMap_possibleAt⟩

end Built

theorem touchup_eq_ok_iff {index : Nat} :
    k.touchup index s = .ok s' ↔ ∃ type t es, k.siteType index = .ok type ∧
      k.plan.touchup? type.layer type.site = some t ∧
      k.effectsOf (s.without t.removals index) index t.tree = .ok es ∧
      k.applyAll index es (s.without t.removals index) = .ok s' := by
  unfold touchup
  rw [bind_eq_ok_iff]
  refine exists_congr fun type => ?_
  cases k.plan.touchup? type.layer type.site with
  | none => simp
  | some t => simp [KernelState.foldl_remove]

theorem due_anchorItems (occupant : Coordinate → String) (fs : List Frame) :
    Synthesis.due occupant (fs.map (·.anchorItem)) =
      (fs.filter fun f => f.anchorItem.Satisfied occupant).map
        fun f => .enable f.number f.anchorCoord := by
  unfold Synthesis.due
  rw [List.filter_map, List.map_map]
  rfl

namespace Built

theorem satisfied_anchorItem (hb : k.Built frames) {f : Frame} (hf : f ∈ frames)
    {index : Nat} : f.anchorItem.Satisfied (k.occupant s index) ↔
      ∀ c ∈ f.conditions, k.occupant s index c.coord = c.species := by
  unfold Item.Satisfied Frame.anchorItem
  rw [hb.conditionsFrom_anchor hf]

theorem mem_enabledBy_touchup (hb : k.Built frames) {index : Nat} (hi : index ∈ k.sites)
    {type : SiteConstant} (htype : k.siteType index = .ok type) {es : List Effect}
    (hes : es.Perm (Synthesis.due (k.occupant s index)
      ((type.anchored frames).map (·.anchorItem)))) {r : Registration} :
    r ∈ k.enabledBy index es ↔ r.2 = index ∧ k.CanRun frames s r := by
  rw [due_anchorItems] at hes
  rw [(enabledBy_perm hes).mem_iff, enabledBy_map_enable]
  simp only [List.mem_map, List.mem_filter, decide_eq_true_eq, mem_anchored hi htype]
  constructor
  · rintro ⟨f, ⟨⟨hf, hhosts⟩, hsat⟩, rfl⟩
    have hplace := hb.place_anchorCoord hf hi hhosts.2
    refine ⟨hplace, f, hf, rfl, ?_⟩
    rw [hplace]
    exact ⟨hhosts, (hb.satisfied_anchorItem hf).1 hsat⟩
  · rintro ⟨rfl, f, hf, hnumber, hhosts, hconditions⟩
    refine ⟨f, ⟨⟨hf, hhosts⟩, (hb.satisfied_anchorItem hf).2 hconditions⟩, ?_⟩
    rw [hb.place_anchorCoord hf hi hhosts.2, ← hnumber]

theorem enabledBy_touchup_nodup (hb : k.Built frames) {index : Nat} {type : SiteConstant}
    {es : List Effect} (hes : es.Perm (Synthesis.due (k.occupant s index)
      ((type.anchored frames).map (·.anchorItem)))) : (k.enabledBy index es).Nodup := by
  rw [due_anchorItems] at hes
  rw [(enabledBy_perm hes).nodup_iff, enabledBy_map_enable]
  apply List.Nodup.of_map Prod.fst
  rw [List.map_map]
  exact (hb.anchored_number_nodup type).sublist (List.filter_sublist.map _)

theorem disabledBy_touchup {index : Nat} {type : SiteConstant} {es : List Effect}
    (hes : es.Perm (Synthesis.due (k.occupant s index)
      ((type.anchored frames).map (·.anchorItem)))) : k.disabledBy index es = [] := by
  rw [due_anchorItems] at hes
  rw [← List.perm_nil, ← disabledBy_map_enable]
  exact disabledBy_perm hes

theorem mem_removals {index : Nat} (hi : index ∈ k.sites) {type : SiteConstant}
    (htype : k.siteType index = .ok type) {r : Registration} :
    r ∈ (type.touchup frames).removals.map (·, index) ↔ r.2 = index ∧ k.Anchors frames r := by
  simp only [SiteConstant.touchup, List.mem_map, mem_anchored hi htype]
  constructor
  · rintro ⟨_, ⟨f, ⟨hf, hhosts⟩, rfl⟩, rfl⟩
    exact ⟨rfl, f, hf, rfl, hhosts⟩
  · rintro ⟨rfl, f, hf, hnumber, hhosts⟩
    exact ⟨f.number, ⟨f, ⟨hf, hhosts⟩, rfl⟩, Prod.ext hnumber.symm rfl⟩

theorem touchup_eq_ok (hb : k.Built frames) (hs : k.Full s) (honce : s.listed.Nodup)
    {index : Nat} (hi : index ∈ k.sites) :
    ∃ s', k.touchup index s = .ok s' ∧ k.Renewed frames [index] s s' := by
  obtain ⟨type, hmem, htype, -⟩ := hb.exists_siteType hi
  obtain ⟨t, ht, hremovals, htree⟩ := hb.plan.touchup?_eq hmem
  let cleared := s.without t.removals index
  have hcleared : ∀ r, r ∈ cleared.listed ↔
      r ∈ s.listed ∧ ¬(r.2 = index ∧ k.Anchors frames r) := by
    intro r
    rw [← mem_removals hi htype, ← hremovals]
    exact List.mem_filter.trans (and_congr_right' decide_eq_true_iff)
  have hitems : ∀ i ∈ (type.anchored frames).map (·.anchorItem), ∀ q ∈ i.questions,
      k.model.HasSiteType q.coord := by
    intro i hmem q hq
    obtain ⟨f, hf, rfl⟩ := List.mem_map.1 hmem
    have hf := ((mem_anchored hi htype).1 hf).1
    rw [Frame.anchorItem, hb.conditionsFrom_anchor hf] at hq
    exact ((hb.frameRules hf).conditions q hq).siteType
  obtain ⟨es, hes, hperm⟩ := hb.effectsOf_synthesize (s := cleared) hs hi hitems
  have henabled : ∀ r, r ∈ k.enabledBy index es ↔ r.2 = index ∧ k.CanRun frames s r := by
    intro r
    have hsame : cleared.occupation = s.occupation := rfl
    rw [hb.mem_enabledBy_touchup hi htype hperm, canRun_congr hsame]
  have hdisabled := disabledBy_touchup hperm
  have hresolve : ∀ e ∈ es, k.resolve index e.location = .ok (k.place index e.location) := by
    intro e he
    rw [hperm.mem_iff, due_anchorItems] at he
    obtain ⟨f, hf, rfl⟩ := List.mem_map.1 he
    have hf := (mem_anchored hi htype).1 (List.mem_of_mem_filter hf)
    exact hb.resolve_eq_ok hi (hb.declares_anchor hf.1).1
  have hnew : ∀ r ∈ k.enabledBy index es, r ∉ cleared.listed := by
    intro r hr hlisted
    obtain ⟨hindex, hcan⟩ := (henabled r).1 hr
    exact ((hcleared r).1 hlisted).2 ⟨hindex, hcan.anchors⟩
  obtain ⟨s', hs', hocc, hnodup, hlisted⟩ := applyAll_eq_ok hresolve (s := cleared)
    (honce.filter _) (hb.enabledBy_touchup_nodup hperm) hnew (by simp [hdisabled])
  have hlisted : ∀ r, r ∈ s'.listed ↔ r.2 = index ∧ k.CanRun frames s r ∨
      r ∈ s.listed ∧ ¬(r.2 = index ∧ k.Anchors frames r) := by
    intro r
    rw [hlisted, henabled, hcleared, hdisabled]
    simp
  refine ⟨s', ?_, hocc, hnodup, ?_, ?_⟩
  · exact touchup_eq_ok_iff.2 ⟨type, t, es, htype, ht, htree ▸ hes, hs'⟩
  · intro r hr hanchors
    rw [List.mem_singleton] at hr
    rw [hlisted]
    simp [hr, hanchors]
  · intro r hr
    rw [List.mem_singleton] at hr
    rw [hlisted]
    have hcan : r.2 = index → ¬k.CanRun frames s r := fun hindex h => hr ⟨hindex, h.anchors⟩
    simp only [hr, not_false_eq_true, and_true, or_iff_right_iff_imp]
    exact fun h => absurd h.2 (hcan h.1)

theorem touchupEach_eq_ok (hb : k.Built frames) {indices : List Nat}
    (hsites : ∀ i ∈ indices, i ∈ k.sites) (hs : k.Full s) (honce : s.listed.Nodup) :
    ∃ s', k.touchupEach indices s = .ok s' ∧ k.Renewed frames indices s s' := by
  induction indices generalizing s with
  | nil => exact ⟨s, rfl, rfl, honce, by simp, by simp⟩
  | cons index indices ih =>
    obtain ⟨s₁, hs₁, hfirst⟩ := hb.touchup_eq_ok hs honce (hsites index (by simp))
    obtain ⟨s₂, hs₂, hrest⟩ := ih (fun i hi => hsites i (by simp [hi]))
      (hs.of_occupation hfirst.occupation) hfirst.once
    refine ⟨s₂, ?_, hrest.occupation.trans hfirst.occupation, hrest.once, ?_, ?_⟩
    · rw [touchupEach, hs₁]
      exact hs₂
    · intro r hr hanchors
      by_cases hlater : r.2 ∈ indices
      · rw [hrest.renewed r hlater hanchors, canRun_congr hfirst.occupation]
      · have hnow : r.2 ∈ [index] := by simpa [hlater] using hr
        rw [hrest.kept r (fun h => hlater h.1), hfirst.renewed r hnow hanchors]
    · intro r hr
      rw [hrest.kept r (fun h => hr ⟨List.mem_cons_of_mem _ h.1, h.2⟩),
        hfirst.kept r (fun h => hr ⟨List.mem_cons.2 (.inl (List.mem_singleton.1 h.1)), h.2⟩)]

end Built

namespace Renewed

variable {indices : List Nat} {s' : KernelState}

theorem faithful (h : k.Renewed frames indices s s') (hs : k.Faithful frames s) :
    k.Faithful frames s' := by
  refine ⟨hs.full.of_occupation h.occupation, h.once, ?_⟩
  intro r
  rw [canRun_congr h.occupation]
  by_cases hr : r.2 ∈ indices ∧ k.Anchors frames r
  · exact h.renewed r hr.1 hr.2
  · exact (h.kept r hr).trans (hs.listed r)

theorem faithful_of_sites (h : k.Renewed frames k.sites s s') (hs : k.Full s)
    (hanchors : ∀ r ∈ s.listed, k.Anchors frames r) : k.Faithful frames s' := by
  refine ⟨hs.of_occupation h.occupation, h.once, ?_⟩
  intro r
  rw [canRun_congr h.occupation]
  by_cases hr : k.Anchors frames r
  · obtain ⟨f, hf, hnumber, hhosts⟩ := hr
    exact h.renewed r hhosts.1 ⟨f, hf, hnumber, hhosts⟩
  · rw [h.kept r (fun hr' => hr hr'.2)]
    exact ⟨fun hlisted => absurd (hanchors r hlisted) hr, fun hcan => absurd hcan.anchors hr⟩

end Renewed

theorem full_start (k : Kernel) : k.Full k.start := by
  simp [Full, start]

theorem Built.reset_eq_ok (hb : k.Built frames) :
    ∃ s, k.reset = .ok s ∧ k.Faithful frames s := by
  obtain ⟨s, hs, hrenewed⟩ :=
    hb.touchupEach_eq_ok (fun _ hi => hi) k.full_start (List.nodup_nil)
  exact ⟨s, hs, hrenewed.faithful_of_sites k.full_start (by simp [start])⟩

end Kernel
end LatticeKinetics
