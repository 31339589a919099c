import LatticeKinetics.Proofs.PlanLookup

/-! Every pass of the compiler gets through on a model that obeys the rules: its cell has sites,
every process can be framed, every event tells before from after, and every action of a frame meets
a condition. -/

namespace LatticeKinetics

theorem ConversionTable.exists_shift_eq_ok {table : ConversionTable} {source target : String}
    (h : table.contains source target = true) : ∃ shift, table.shift source target = .ok shift := by
  unfold contains at h
  unfold shift
  split
  · exact ⟨_, rfl⟩
  · rename_i hne
    rw [Bool.or_eq_true, beq_iff_eq, or_iff_right hne] at h
    obtain ⟨shift, hshift⟩ := Option.isSome_iff_exists.1 h
    exact ⟨shift, by rw [hshift]⟩

namespace Frame

theorem exists_framePlacements_eq_ok {origin : Coordinate} {table : ConversionTable}
    {ps : List Placement} (h : ∀ p ∈ ps, table.contains p.coord.layer origin.layer = true) :
    ∃ qs, framePlacements origin table ps = .ok qs := by
  induction ps with
  | nil => exact ⟨[], rfl⟩
  | cons p ps ih =>
    obtain ⟨shift, hshift⟩ := ConversionTable.exists_shift_eq_ok (h p (by simp))
    obtain ⟨qs, hqs⟩ := ih fun q hq => h q (List.mem_cons_of_mem _ hq)
    simp only [framePlacements, Coordinate.relativeTo, bind_eq_ok_iff, pure_eq_ok_iff]
    exact ⟨_, _, ⟨shift, hshift, rfl⟩, qs, hqs, rfl⟩

theorem exists_ofProcess_eq_ok {m : Model} {p : Process} (h : m.ProcessRules p) (number : Nat) :
    ∃ f, ofProcess m number p = .ok f := by
  obtain ⟨anchor, hanchor, hreach⟩ := h.anchored
  have hplace : (p.conditions.findIdx? (·.coord.isAnchor)).isSome = true := by
    rw [List.findIdx?_isSome, List.any_eq_true]
    exact ⟨anchor, List.mem_of_find?_eq_some hanchor,
      List.find?_some (p := fun c : Placement => c.coord.isAnchor) hanchor⟩
  obtain ⟨k, hk⟩ := Option.isSome_iff_exists.1 hplace
  obtain ⟨conditions, hconditions⟩ := exists_framePlacements_eq_ok hreach
  -- An action lies where some condition does, so its layer is in reach as well.
  have hreach' : ∀ a ∈ p.actions,
      m.conversions.contains a.coord.layer anchor.coord.layer = true := by
    intro a ha
    obtain ⟨-, c, hc, hcoord⟩ := h.actions a ha
    exact hcoord ▸ hreach c hc
  obtain ⟨actions, hactions⟩ := exists_framePlacements_eq_ok hreach'
  exact ⟨⟨number, p, k, conditions, actions⟩,
    ofProcess_eq_ok_iff.2 ⟨anchor, hanchor, rfl, rfl, hk, hconditions, hactions⟩⟩

theorem exists_steps_eq_ok {f : Frame} {actions : List Placement}
    (h : ∀ a ∈ actions, ∃ c ∈ f.conditions, c.coord = a.coord) (defaultSpecies : String) :
    ∃ steps, f.steps defaultSpecies actions = .ok steps := by
  induction actions with
  | nil => exact ⟨[], rfl⟩
  | cons a actions ih =>
    obtain ⟨c, hc, hcoord⟩ := h a (by simp)
    have hsome : (f.conditionAt? a.coord).isSome = true :=
      List.find?_isSome.2 ⟨c, hc, by simp [hcoord]⟩
    obtain ⟨condition, hcondition⟩ := Option.isSome_iff_exists.1 hsome
    obtain ⟨rest, hrest⟩ := ih fun b hb => h b (List.mem_cons_of_mem _ hb)
    simp only [steps, hcondition, bind_eq_ok_iff, pure_eq_ok_iff]
    exact ⟨_, rest, hrest, rfl⟩

theorem exists_dispatch_eq_ok {m : Model} {number : Nat} {p : Process} {f : Frame}
    (h : m.ProcessRules p) (hf : ofProcess m number p = .ok f) (defaultSpecies : String) :
    ∃ d, f.dispatch defaultSpecies = .ok d := by
  obtain ⟨anchor, -, -, -, -, hconditions, hactions⟩ := ofProcess_eq_ok_iff.1 hf
  have hmet : ∀ a ∈ f.actions, ∃ c ∈ f.conditions, c.coord = a.coord := by
    intro a' ha'
    obtain ⟨a, ha, hframed, -⟩ := forall₂_mem (framePlacements_forall₂ hactions) ha'
    obtain ⟨-, c, hc, hcoord⟩ := h.actions a ha
    obtain ⟨c', hc', hframed', -⟩ :=
      forall₂_mem (framePlacements_forall₂ hconditions).flip hc
    rw [hcoord, hframed] at hframed'
    exact ⟨c', hc', (Except.ok.inj hframed').symm⟩
  obtain ⟨steps, hsteps⟩ := exists_steps_eq_ok hmet defaultSpecies
  simp only [dispatch, bind_eq_ok_iff, pure_eq_ok_iff]
  exact ⟨_, steps, hsteps, rfl⟩

end Frame

namespace Model

variable {m : Model} {frames : List Frame}

theorem Rules.exists_formula_eq_ok (h : m.Rules) : ∃ formula, m.formula = .ok formula := by
  have hdimension := h.dimension
  have hsites := h.sitesPerCell_pos
  have hcell : checkCell m.dimension m.sitesPerCell = .ok () := by
    unfold checkCell
    rw [if_neg (by omega), if_neg (by omega)]
  simp only [formula, Formula.ofCell, bind_eq_ok_iff, pure_eq_ok_iff]
  exact ⟨_, (), hcell, rfl⟩

theorem mem_processes_of_numbered {np : Nat × Process} (h : np ∈ m.numberedProcesses) :
    np.2 ∈ m.processes := by
  obtain ⟨q, hq, rfl⟩ := List.mem_map.1 h
  exact List.fst_mem_of_mem_zipIdx hq

theorem Rules.exists_frames_eq_ok (h : m.Rules) : ∃ frames, m.frames = .ok frames := by
  apply exists_traversal_eq_ok (fun np : Nat × Process => Frame.ofProcess m np.1 np.2)
    (Frame.ofProcesses m) rfl (fun _ _ => rfl)
  intro np hnp
  exact Frame.exists_ofProcess_eq_ok (h.processes _ (mem_processes_of_numbered hnp)) _

theorem Rules.exists_dispatches_eq_ok (h : m.Rules) (hf : m.frames = .ok frames) :
    ∃ ds, Frame.dispatches m.defaultSpecies frames = .ok ds := by
  apply exists_traversal_eq_ok (Frame.dispatch · m.defaultSpecies)
    (Frame.dispatches m.defaultSpecies) rfl (fun _ _ => rfl)
  intro f hmem
  obtain ⟨np, hnp, hof⟩ := forall₂_mem (Frame.ofProcesses_forall₂ hf) hmem
  exact Frame.exists_dispatch_eq_ok (h.processes _ (mem_processes_of_numbered hnp)) hof _

theorem mem_events_iff {e : Event} :
    e ∈ m.events ↔
      e.species ∈ m.species ∧ e.species ≠ m.defaultSpecies ∧ (e.layer, e.site) ∈ m.siteTypes := by
  constructor
  · intro h
    unfold events at h
    obtain ⟨species, hspecies, h⟩ := List.mem_flatMap.1 h
    obtain ⟨s, hs, h⟩ := List.mem_flatMap.1 h
    obtain ⟨direction, -, rfl⟩ := List.mem_map.1 h
    obtain ⟨hmem, hdefault⟩ := List.mem_filter.1 hspecies
    refine ⟨hmem, ?_, ?_⟩
    · rintro rfl
      simp [isDefault] at hdefault
    · rw [← map_sites]
      exact List.mem_map_of_mem (f := fun s : SiteRef => (s.layer, s.site)) hs
  · rintro ⟨hspecies, hdefault, hsite⟩
    exact mem_events hspecies hdefault hsite

/-- What a site holds before an event it does not hold after it, so no condition asks for both. -/
theorem ambiguous?_eq_none {e : Event} (h : e.species ≠ m.defaultSpecies)
    (os : List Classification.Occurrence) :
    Classification.ambiguous? m.defaultSpecies e os = none := by
  apply List.find?_eq_none.2
  intro o _ hboth
  rw [Bool.and_eq_true, beq_iff_eq, beq_iff_eq] at hboth
  exact Event.before_ne_after h (hboth.2.symm.trans hboth.1)

theorem Rules.ofEvent_eq (h : m.Rules) {e : Event} (hspecies : e.species ∈ m.species)
    (hsite : (e.layer, e.site) ∈ m.siteTypes) (frames : List Frame) :
    Classification.ofEvent m frames e =
      match Classification.ambiguous? m.defaultSpecies e (Classification.touched frames e) with
      | some o => .error (.ambiguousEmptySpecies o.frame.process.name o.declared e.species)
      | none => .ok {
          event := e
          enables := ((Classification.touched frames e).filter
            (·.condition.species == e.after m.defaultSpecies)).map Classification.enabling
          disables := ((Classification.touched frames e).filter
            (·.condition.species == e.before m.defaultSpecies)).map Classification.disabling } := by
  have htype : m.HasSiteType ⟨[], e.site, e.layer⟩ := h.hasSiteType_of_mem hsite
  obtain ⟨slot, hslot⟩ := exists_coordIndex_eq_ok htype
  have hindex : m.siteIndex e.layer e.site = .ok slot := hslot
  obtain ⟨number, hnumber⟩ : ∃ n, m.requireSpecies "" e.species = .ok n :=
    requireSpecies_eq_ok_iff.2 hspecies
  rw [Classification.ofEvent, hindex, hnumber]
  rfl

theorem Rules.exists_ofEvent_eq_ok (h : m.Rules) {e : Event} (he : e ∈ m.events)
    (frames : List Frame) : ∃ c, Classification.ofEvent m frames e = .ok c := by
  obtain ⟨hspecies, hdefault, hsite⟩ := mem_events_iff.1 he
  rw [h.ofEvent_eq hspecies hsite, ambiguous?_eq_none hdefault]
  exact ⟨_, rfl⟩

theorem Rules.exists_classifyWith_eq_ok (h : m.Rules) (frames : List Frame) :
    ∃ cs, m.classifyWith frames = .ok cs :=
  exists_traversal_eq_ok (Classification.ofEvent m frames) (Classification.ofEvents m frames) rfl
    (fun _ _ => rfl) fun _ he => h.exists_ofEvent_eq_ok he frames

/-- Compiling a model that obeys the rules comes down to claiming the names of its plan. -/
theorem Rules.compile_eq (h : m.Rules) :
    ∃ frames plan, m.frames = .ok frames ∧ plan.CompiledFrom m frames ∧
      m.compile = (Plan.checkClaims [] (plan.claims m)).map fun _ => plan := by
  obtain ⟨formula, hformula⟩ := h.exists_formula_eq_ok
  obtain ⟨frames, hframes⟩ := h.exists_frames_eq_ok
  obtain ⟨cs, hcs⟩ := h.exists_classifyWith_eq_ok frames
  obtain ⟨ds, hds⟩ := h.exists_dispatches_eq_ok hframes
  refine ⟨frames,
    ⟨m.fingerprint, formula, m.siteConstants, frames.flatMap (·.checks),
      cs.map (·.update m.defaultSpecies), m.siteConstants.map (·.touchup frames), ds⟩,
    hframes, ⟨rfl, rfl, ⟨cs, hcs, rfl⟩, rfl, hds⟩, ?_⟩
  unfold compile
  rw [hformula, hframes]
  simp only [Except.mapError, bind, Except.bind, hcs, hds]
  generalize Plan.checkClaims [] _ = outcome
  cases outcome <;> rfl

end Model
end LatticeKinetics
