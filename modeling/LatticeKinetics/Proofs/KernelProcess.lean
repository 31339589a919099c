import LatticeKinetics.Proofs.KernelUpdate

/-! What a process does when it runs. Each of its actions is carried out by at most two updates; as
the process is possible, actions at different coordinates are on different sites, so no action finds
its site changed by another. -/

namespace LatticeKinetics

namespace Frame

theorem exists_conditionAt? {f : Frame} {defaultSpecies : String} {actions : List Placement}
    {steps : List Step} (h : f.steps defaultSpecies actions = .ok steps) :
    ∀ a ∈ actions, ∃ c, f.conditionAt? a.coord = some c := by
  induction actions generalizing steps with
  | nil => simp
  | cons a actions ih =>
    obtain ⟨c, rest, hc, hrest, -⟩ := steps_cons_eq_ok h
    exact List.forall_mem_cons.2 ⟨⟨c, hc⟩, ih hrest⟩

end Frame

namespace Direction

def expects (species defaultSpecies : String) : Direction → String
  | .put => defaultSpecies
  | .take => species

def leaves (species defaultSpecies : String) : Direction → String
  | .put => species
  | .take => defaultSpecies

end Direction

namespace Kernel

variable {k : Kernel} {frames : List Frame} {s s' : KernelState} {x : Nat}

theorem runSteps_append (origin : Nat) (first next : List Step) (s : KernelState) :
    k.runSteps origin (first ++ next) s =
      k.runSteps origin first s >>= k.runSteps origin next := by
  induction first generalizing s with
  | nil => rfl
  | cons step first ih =>
    simp only [List.cons_append, runSteps, ih, bind_assoc]

theorem runSteps_cons {origin : Nat} {step : Step} {steps : List Step} {target : Nat}
    {s₁ : KernelState} (htarget : k.resolve origin step.coord = .ok target)
    (hupdate : k.update step.direction step.species target s = .ok s₁) :
    k.runSteps origin (step :: steps) s = k.runSteps origin steps s₁ := by
  rw [runSteps, htarget]
  change (k.update step.direction step.species target s >>= _) = _
  rw [hupdate]
  rfl

/-- What every update keeps, a run keeps: it is a row of updates. -/
theorem run_keeps {P : KernelState → Prop}
    (hupdate : ∀ {direction species target s s'}, P s →
      k.update direction species target s = .ok s' → P s')
    {process index : Nat} (hs : P s) (h : k.run process index s = .ok s') : P s' := by
  unfold run at h
  split at h
  · contradiction
  · rename_i d _
    generalize d.steps = steps at h
    induction steps generalizing s with
    | nil => exact Except.ok.inj h ▸ hs
    | cons step steps ih =>
      simp only [runSteps, bind_eq_ok_iff] at h
      obtain ⟨target, -, s₁, hs₁, h⟩ := h
      exact ih (hupdate hs hs₁) h

namespace Built

theorem update_expecting (hb : k.Built frames) (hsep : k.Separated) (hs : k.Faithful frames s)
    (hx : x ∈ k.sites) (direction : Direction) {species : String}
    (hspecies : species ∈ k.model.species) (hne : species ≠ k.model.defaultSpecies)
    (hfound : s.species? x = some (direction.expects species k.model.defaultSpecies)) :
    ∃ s', k.update direction species x s = .ok s' ∧ k.Faithful frames s' ∧
      ∀ t, s'.species? t =
        if t = x then some (direction.leaves species k.model.defaultSpecies)
        else s.species? t := by
  obtain ⟨type, -, htype, -⟩ := hb.exists_siteType hx
  let e : Event := ⟨direction, species, type.layer, type.site⟩
  have hmeets : k.Meets e x := ⟨type, htype, rfl, rfl⟩
  have hbefore : e.before k.model.defaultSpecies =
      direction.expects species k.model.defaultSpecies := by
    cases direction <;> rfl
  have hafter : e.after k.model.defaultSpecies =
      direction.leaves species k.model.defaultSpecies := by
    cases direction <;> rfl
  rw [← hafter]
  exact hb.update_eq_ok hsep hs hx hmeets hspecies hne (hbefore.symm ▸ hfound)

/-- The steps of one action turn what its condition requires into what the action leaves, and do
nothing elsewhere. -/
theorem runSteps_actionSteps (hb : k.Built frames) (hsep : k.Separated)
    (hs : k.Faithful frames s) {origin : Nat} (ho : origin ∈ k.sites) {a : Placement}
    (ha : k.model.Declares a) {required : String} (hrequired : required ∈ k.model.species)
    (hfound : s.species? (k.place origin a.coord) = some required) :
    ∃ s', k.runSteps origin (Frame.actionSteps k.model.defaultSpecies a required) s = .ok s' ∧
      k.Faithful frames s' ∧
      ∀ t, s'.species? t =
        if t = k.place origin a.coord then some a.species else s.species? t := by
  have htarget := hb.resolve_eq_ok ho ha.siteType
  have hx := hb.place_mem_sites ho ha.siteType
  unfold Frame.actionSteps
  split
  · rename_i hsame
    refine ⟨s, rfl, hs, ?_⟩
    intro t
    split
    · rename_i ht
      rw [ht, hfound, hsame]
    · rfl
  · rename_i hchange
    split
    · rename_i hempty
      rw [hempty] at hfound hchange
      obtain ⟨s₁, hs₁, hfaithful, hspecies⟩ :=
        hb.update_expecting hsep hs hx .put ha.species hchange hfound
      exact ⟨s₁, runSteps_cons htarget hs₁, hfaithful, hspecies⟩
    · rename_i hfilled
      obtain ⟨s₁, hs₁, hfaithful₁, hspecies₁⟩ :=
        hb.update_expecting hsep hs hx .take hrequired hfilled hfound
      split
      · rename_i hleaves
        rw [hleaves]
        exact ⟨s₁, runSteps_cons htarget hs₁, hfaithful₁, hspecies₁⟩
      · rename_i hleaves
        have hempty : s₁.species? (k.place origin a.coord) = some k.model.defaultSpecies := by
          rw [hspecies₁, if_pos rfl, Direction.leaves]
        obtain ⟨s₂, hs₂, hfaithful₂, hspecies₂⟩ :=
          hb.update_expecting hsep hfaithful₁ hx .put ha.species hleaves hempty
        refine ⟨s₂, ?_, hfaithful₂, ?_⟩
        · rw [runSteps_cons htarget hs₁]
          exact runSteps_cons htarget hs₂
        · intro t
          rw [hspecies₂, hspecies₁]
          split <;> rfl

theorem runSteps_steps (hb : k.Built frames) (hsep : k.Separated) {f : Frame}
    (hf : f ∈ frames) {index : Nat} (hi : index ∈ k.sites) {actions : List Placement}
    {steps : List Step} (hsteps : f.steps k.model.defaultSpecies actions = .ok steps)
    (hdeclares : ∀ a ∈ actions, k.model.Declares a)
    (hapart : (actions.map fun a => k.place index a.coord).Nodup)
    (hs : k.Faithful frames s)
    (hfound : ∀ a ∈ actions, ∀ c, f.conditionAt? a.coord = some c →
      s.species? (k.place index a.coord) = some c.species) :
    ∃ s', k.runSteps index steps s = .ok s' ∧ k.Faithful frames s' ∧
      (∀ a ∈ actions, s'.species? (k.place index a.coord) = some a.species) ∧
      ∀ t, (∀ a ∈ actions, k.place index a.coord ≠ t) → s'.species? t = s.species? t := by
  induction actions generalizing s steps with
  | nil =>
    obtain rfl : [] = steps := Except.ok.inj hsteps
    exact ⟨s, rfl, hs, by simp, fun _ _ => rfl⟩
  | cons a actions ih =>
    obtain ⟨c, rest, hc, hrest, rfl⟩ := Frame.steps_cons_eq_ok hsteps
    obtain ⟨ha, hdeclares⟩ := List.forall_mem_cons.1 hdeclares
    obtain ⟨hfounda, hfound⟩ := List.forall_mem_cons.1 hfound
    rw [List.map_cons, List.nodup_cons] at hapart
    have hother : ∀ b ∈ actions, k.place index b.coord ≠ k.place index a.coord := by
      intro b hmem heq
      exact hapart.1 (List.mem_map.2 ⟨b, hmem, heq⟩)
    have hrequired : c.species ∈ k.model.species :=
      ((hb.frameRules hf).conditions c (Frame.conditionAt?_eq_some hc).1).species
    obtain ⟨s₁, hs₁, hfaithful₁, hspecies₁⟩ :=
      hb.runSteps_actionSteps hsep hs hi ha hrequired (hfounda c hc)
    have hfound₁ : ∀ b ∈ actions, ∀ c, f.conditionAt? b.coord = some c →
        s₁.species? (k.place index b.coord) = some c.species := by
      intro b hmem c hc
      rw [hspecies₁, if_neg (hother b hmem)]
      exact hfound b hmem c hc
    obtain ⟨s₂, hs₂, hfaithful₂, hleft, hkept⟩ := ih hrest hdeclares hapart.2 hfaithful₁ hfound₁
    refine ⟨s₂, ?_, hfaithful₂, ?_, ?_⟩
    · rw [runSteps_append, hs₁]
      exact hs₂
    · refine List.forall_mem_cons.2 ⟨?_, hleft⟩
      rw [hkept _ hother, hspecies₁, if_pos rfl]
    · intro t ht
      obtain ⟨hta, ht⟩ := List.forall_mem_cons.1 ht
      rw [hkept t ht, hspecies₁, if_neg hta.symm]

theorem action_places_nodup (hb : k.Built frames) (hsep : k.Separated) (hs : k.Full s)
    {f : Frame} (hf : f ∈ frames) {index : Nat} (hpossible : k.Possible s f index)
    (hmatched : ∀ a ∈ f.actions, ∃ c, f.conditionAt? a.coord = some c) :
    (f.actions.map fun a => k.place index a.coord).Nodup := by
  have hrules := hb.frameRules hf
  refine List.Nodup.map_on ?_ (hrules.actionsApart.of_map _)
  intro a ha b hmem hplace
  obtain ⟨c, hc⟩ := hmatched a ha
  obtain ⟨d, hd⟩ := hmatched b hmem
  obtain ⟨hcmem, hca⟩ := Frame.conditionAt?_eq_some hc
  obtain ⟨hdmem, hdb⟩ := Frame.conditionAt?_eq_some hd
  rw [← hca, ← hdb] at hplace
  -- both conditions hold on the one site, so they require the same species there
  have hspecies : c.species = d.species := by
    rw [← hpossible.conditions c hcmem, ← hpossible.conditions d hdmem]
    apply hb.occupant_eq_of_species?_eq hs hs hpossible.hosts.1 hpossible.hosts.1
      (hb.condition_hasSiteType hf hcmem) (hb.condition_hasSiteType hf hdmem)
    rw [hplace]
  obtain ⟨i, hi⟩ := List.getElem?_of_mem hcmem
  obtain ⟨j, hj⟩ := List.getElem?_of_mem hdmem
  obtain rfl := hb.place_inj hsep hf hpossible.hosts hi hj hspecies hplace
  obtain rfl := Option.some.inj (hi.symm.trans hj)
  exact List.inj_on_of_nodup_map hrules.actionsApart ha hmem (hca.symm.trans hdb)

theorem run_eq_ok (hb : k.Built frames) (hsep : k.Separated) (hs : k.Faithful frames s)
    {f : Frame} (hf : f ∈ frames) {index : Nat} (hpossible : k.Possible s f index) :
    ∃ s', k.run f.number index s = .ok s' ∧ k.Faithful frames s' ∧
      (∀ a ∈ f.actions, s'.species? (k.place index a.coord) = some a.species) ∧
      ∀ t, (∀ a ∈ f.actions, k.place index a.coord ≠ t) → s'.species? t = s.species? t := by
  obtain ⟨d, hd, hsteps⟩ := hb.plan.dispatch_getElem? hb.rules hb.framed hf
  have hnumber := (Model.frames_getElem?_number hb.rules hb.framed hf).1
  have hi := hpossible.hosts.1
  have hrun : k.run f.number index s = k.runSteps index d.steps s := by
    unfold run
    rw [if_neg (by omega), hd]
  have hapart := hb.action_places_nodup hsep hs.full hf hpossible
    (Frame.exists_conditionAt? hsteps)
  have hfound : ∀ a ∈ f.actions, ∀ c, f.conditionAt? a.coord = some c →
      s.species? (k.place index a.coord) = some c.species := by
    intro a _ c hc
    obtain ⟨hcmem, hca⟩ := Frame.conditionAt?_eq_some hc
    rw [← hpossible.conditions c hcmem, ← hca]
    exact hb.species?_place hs.full hi (hb.condition_hasSiteType hf hcmem)
  rw [hrun]
  exact hb.runSteps_steps hsep hf hi hsteps (hb.frameRules hf).actions hapart hs hfound

end Built
end Kernel
end LatticeKinetics
