import LatticeKinetics.Plan.Compile
import LatticeKinetics.Proofs.Frames

/-! What a compiled plan holds and what its procedures are found under. -/

namespace LatticeKinetics

private theorem exists_find?_eq_some {α : Type} {as : List α} {p : α → Bool} {a : α}
    (ha : a ∈ as) (hp : p a = true) : ∃ b ∈ as, p b = true ∧ as.find? p = some b := by
  have hsome : (as.find? p).isSome = true := List.find?_isSome.2 ⟨a, ha, hp⟩
  obtain ⟨b, hb⟩ := Option.isSome_iff_exists.1 hsome
  exact ⟨b, List.mem_of_find?_eq_some hb, List.find?_some hb, hb⟩

/-- The parts of a plan that come from the frames of a model. -/
structure Plan.CompiledFrom (p : Plan) (m : Model) (frames : List Frame) : Prop where
  sites : p.sites = m.siteConstants
  checks : p.checks = frames.flatMap (·.checks)
  updates : ∃ cs, m.classifyWith frames = .ok cs ∧ p.updates = cs.map (·.update m.defaultSpecies)
  touchups : p.touchups = m.siteConstants.map (·.touchup frames)
  dispatch : Frame.dispatches m.defaultSpecies frames = .ok p.dispatch

theorem Model.compile_eq_ok {m : Model} {p : Plan} (h : m.compile = .ok p) :
    ∃ frames, m.frames = .ok frames ∧ p.CompiledFrom m frames := by
  unfold Model.compile at h
  simp only [bind_eq_ok_iff, mapError_eq_ok_iff, pure_eq_ok_iff] at h
  obtain ⟨formula, -, frames, hframes, cs, hcs, dispatch, hdispatch, _, -, rfl⟩ := h
  exact ⟨frames, hframes, rfl, rfl, ⟨cs, hcs, rfl⟩, rfl, hdispatch⟩

namespace Frame

theorem eq_anchorCheck_of_mem_checks {f : Frame} {c : Check} (hc : c ∈ f.checks)
    (hnone : c.condition = none) : c = f.anchorCheck := by
  unfold checks at hc
  rcases List.mem_cons.1 hc with rfl | hc
  · rfl
  · obtain ⟨k, -, rfl⟩ := List.mem_map.1 hc
    simp [checkFrom] at hnone

theorem anchorCheck_mem_checks (f : Frame) : f.anchorCheck ∈ f.checks := by
  simp [checks]

theorem dispatches_forall₂ {defaultSpecies : String} {fs : List Frame} {ds : List Dispatch}
    (h : dispatches defaultSpecies fs = .ok ds) :
    List.Forall₂ (fun f d => f.dispatch defaultSpecies = .ok d) fs ds :=
  forall₂_of_traversal (·.dispatch defaultSpecies) (dispatches defaultSpecies) rfl
    (fun _ _ => rfl) h

theorem dispatch_eq_ok {f : Frame} {defaultSpecies : String} {d : Dispatch}
    (h : f.dispatch defaultSpecies = .ok d) : f.steps defaultSpecies f.actions = .ok d.steps := by
  unfold dispatch at h
  simp only [bind_eq_ok_iff, pure_eq_ok_iff] at h
  obtain ⟨steps, hsteps, rfl⟩ := h
  exact hsteps

theorem conditionAt?_eq_some {f : Frame} {coord : Coordinate} {c : Placement}
    (h : f.conditionAt? coord = some c) : c ∈ f.conditions ∧ c.coord = coord := by
  unfold conditionAt? at h
  exact ⟨List.mem_of_find?_eq_some h, by simpa using List.find?_some h⟩

theorem steps_cons_eq_ok {f : Frame} {defaultSpecies : String} {a : Placement}
    {actions : List Placement} {steps : List Step}
    (h : f.steps defaultSpecies (a :: actions) = .ok steps) :
    ∃ c rest, f.conditionAt? a.coord = some c ∧ f.steps defaultSpecies actions = .ok rest ∧
      steps = actionSteps defaultSpecies a c.species ++ rest := by
  rw [Frame.steps] at h
  cases hc : f.conditionAt? a.coord with
  | none => simp [hc] at h
  | some c =>
    simp only [hc, bind_eq_ok_iff, pure_eq_ok_iff] at h
    obtain ⟨rest, hrest, rfl⟩ := h
    exact ⟨c, rest, rfl, hrest, rfl⟩

end Frame

theorem Event.before_ne_after {e : Event} {defaultSpecies : String}
    (h : e.species ≠ defaultSpecies) : e.before defaultSpecies ≠ e.after defaultSpecies := by
  unfold before after
  cases e.direction with
  | put => exact h.symm
  | take => exact h

namespace Classification

theorem ofEvent_eq_ok {m : Model} {frames : List Frame} {e : Event} {c : Classification}
    (h : ofEvent m frames e = .ok c) :
    c.event = e ∧
      c.enables = ((touched frames e).filter
        (·.condition.species == e.after m.defaultSpecies)).map enabling ∧
      c.disables = ((touched frames e).filter
        (·.condition.species == e.before m.defaultSpecies)).map disabling := by
  unfold ofEvent at h
  simp only [bind_eq_ok_iff] at h
  obtain ⟨_, -, _, -, h⟩ := h
  split at h
  · simp at h
  · obtain rfl := pure_eq_ok_iff.1 h
    exact ⟨rfl, rfl, rfl⟩

theorem ofEvents_forall₂ {m : Model} {frames : List Frame} {es : List Event}
    {cs : List Classification} (h : ofEvents m frames es = .ok cs) :
    List.Forall₂ (fun e c => ofEvent m frames e = .ok c) es cs :=
  forall₂_of_traversal (ofEvent m frames) (ofEvents m frames) rfl (fun _ _ => rfl) h

end Classification

theorem Model.mem_events {m : Model} {direction : Direction} {species : String}
    {t : String × String} (hs : species ∈ m.species) (hd : species ≠ m.defaultSpecies)
    (ht : t ∈ m.siteTypes) :
    { direction, species, layer := t.1, site := t.2 : Event } ∈ m.events := by
  obtain ⟨i, hi⟩ := List.getElem?_of_mem ht
  have hsite : (⟨t.1, t.2, i + 1⟩ : SiteRef) ∈ m.sites := by
    apply List.mem_of_getElem? (i := i)
    rw [sites_getElem?, hi]
    rfl
  unfold Model.events
  refine List.mem_flatMap.2 ⟨species, ?_, List.mem_flatMap.2 ⟨_, hsite, ?_⟩⟩
  · simp [hs, isDefault, Ne.symm hd]
  · cases direction <;> simp

namespace Plan.CompiledFrom

variable {p : Plan} {m : Model} {frames : List Frame}

theorem anchorCheck?_number (h : p.CompiledFrom m frames) (hm : m.Rules)
    (hf : m.frames = .ok frames) {f : Frame} (hmem : f ∈ frames) :
    p.anchorCheck? f.number = some f.anchorCheck := by
  have hcheck : f.anchorCheck ∈ p.checks := by
    rw [h.checks]
    exact List.mem_flatMap.2 ⟨f, hmem, f.anchorCheck_mem_checks⟩
  obtain ⟨c, hc, hpred, hfind⟩ := exists_find?_eq_some
    (p := fun c => c.process == f.number && c.condition.isNone) hcheck
    (by simp [Frame.anchorCheck])
  rw [Bool.and_eq_true, beq_iff_eq, Option.isNone_iff_eq_none] at hpred
  obtain ⟨hnumber, hnone⟩ := hpred
  rw [h.checks] at hc
  obtain ⟨g, hg, hc⟩ := List.mem_flatMap.1 hc
  obtain rfl := Frame.eq_anchorCheck_of_mem_checks hc hnone
  obtain rfl := Model.eq_of_number_eq hm hf hg hmem hnumber
  exact hfind

theorem update?_eq (h : p.CompiledFrom m frames) {e : Event} (he : e ∈ m.events) :
    ∃ c, Classification.ofEvent m frames e = .ok c ∧
      p.update? e = some (c.update m.defaultSpecies) := by
  obtain ⟨cs, hcs, hupdates⟩ := h.updates
  have hforall := Classification.ofEvents_forall₂ hcs
  obtain ⟨i, hi⟩ := List.getElem?_of_mem he
  obtain ⟨c, hc, hofc⟩ := forall₂_getElem? hforall hi
  have hevent := (Classification.ofEvent_eq_ok hofc).1
  have hupdate : c.update m.defaultSpecies ∈ p.updates := by
    rw [hupdates]
    exact List.mem_map_of_mem (List.mem_of_getElem? hc)
  obtain ⟨u, hu, hpred, hfind⟩ := exists_find?_eq_some (p := (·.event == e)) hupdate
    (by simp [Classification.update, hevent])
  rw [hupdates] at hu
  obtain ⟨c', hc', rfl⟩ := List.mem_map.1 hu
  obtain ⟨e', -, hofc'⟩ := forall₂_mem hforall hc'
  obtain rfl : e' = e := by
    rw [← (Classification.ofEvent_eq_ok hofc').1]
    simpa [Classification.update] using hpred
  exact ⟨c', hofc', hfind⟩

theorem touchup?_eq (h : p.CompiledFrom m frames) {s : SiteConstant}
    (hs : s ∈ m.siteConstants) :
    ∃ t, p.touchup? s.layer s.site = some t ∧ t.removals = (s.touchup frames).removals ∧
      t.tree = (s.touchup frames).tree := by
  have hmem : s.touchup frames ∈ p.touchups := by
    rw [h.touchups]
    exact List.mem_map_of_mem hs
  obtain ⟨t, ht, hpred, hfind⟩ := exists_find?_eq_some
    (p := fun t => t.layer == s.layer && t.site == s.site) hmem
    (by simp [SiteConstant.touchup])
  rw [h.touchups] at ht
  obtain ⟨s', -, rfl⟩ := List.mem_map.1 ht
  have hnames : s'.layer = s.layer ∧ s'.site = s.site := by
    simpa [SiteConstant.touchup] using hpred
  refine ⟨_, hfind, ?_, ?_⟩ <;>
    simp [SiteConstant.touchup, SiteConstant.anchored, hnames]

theorem dispatch_getElem? (h : p.CompiledFrom m frames) (hm : m.Rules)
    (hf : m.frames = .ok frames) {f : Frame} (hmem : f ∈ frames) :
    ∃ d, p.dispatch[f.number - 1]? = some d ∧ f.steps m.defaultSpecies f.actions = .ok d.steps := by
  obtain ⟨d, hd, hdispatch⟩ := forall₂_getElem? (Frame.dispatches_forall₂ h.dispatch)
    (Model.frames_getElem?_number hm hf hmem).2
  exact ⟨d, hd, Frame.dispatch_eq_ok hdispatch⟩

end Plan.CompiledFrom
end LatticeKinetics
