import LatticeKinetics.Proofs.NameCollisions
import LatticeKinetics.Proofs.PlanItems

/-! A compiled plan is complete and closed. It has one update for every event, one touch-up for
every site type, and for every process its checks and its dispatch. A process calls no update that
is not there, the updates it calls turn what its conditions require into what its actions leave, and
the trees of the plan name nothing that the model does not declare. -/

namespace LatticeKinetics

open Text

structure CheckHead where
  name : String
  process : Nat
  condition : Option Nat
  layer : String
  site : String
deriving DecidableEq, Repr

def Check.head (c : Check) : CheckHead :=
  ⟨c.name, c.process, c.condition, c.origin.layer, c.origin.site⟩

def Process.checkHeads (number : Nat) (q : Process) : List CheckHead :=
  q.anchor?.toList.map
      (fun a => ⟨s!"check_{q.name}", number, none, a.coord.layer, a.coord.site⟩) ++
    (q.conditions.zipIdx.filter
        fun c => q.conditions.findIdx? (·.coord.isAnchor) != some c.2).map
      fun c => ⟨s!"check_{q.name}_{c.2 + 1}", number, some (c.2 + 1), c.1.coord.layer,
        c.1.coord.site⟩

namespace Plan

/-- The plan has what the model asks for, and each part once. -/
structure Complete (p : Plan) (m : Model) : Prop where
  updatesOnce : (p.updates.map (·.event)).Nodup
  updates : ∀ e, e ∈ p.updates.map (·.event) ↔
    e.species ∈ m.species ∧ e.species ≠ m.defaultSpecies ∧ (e.layer, e.site) ∈ m.siteTypes
  siteTypesOnce : m.siteTypes.Nodup
  touchups : (p.touchups.map fun t => (t.layer, t.site)) = m.siteTypes
  dispatch : (p.dispatch.map fun d => (d.process, d.name)) =
    m.numberedProcesses.map fun np => (np.1, np.2.name)
  checks : p.checks.map (·.head) = m.numberedProcesses.flatMap fun np => np.2.checkHeads np.1

/-- The update is the only one with the name that the step calls, also when case does not count, and
it is the update of the step's event. -/
structure Calls (p : Plan) (s : Step) (u : Update) : Prop where
  only : (p.updates.filter fun v => foldCase v.name = foldCase s.procedure) = [u]
  name : u.name = s.procedure
  event : u.event = s.event

/-- The updates that the steps call turn one species into another, each from what the one before
leaves. -/
inductive Turns (p : Plan) : List Step → String → String → Prop where
  | done (species : String) : Turns p [] species species
  | step {s : Step} {u : Update} {steps : List Step} {left : String} (call : p.Calls s u)
      (rest : Turns p steps u.after left) : Turns p (s :: steps) u.before left

/-- The steps are at the coordinate of the action as seen from the anchor, and turn what the
condition there requires into what the action leaves. -/
def CarriesOut (p : Plan) (m : Model) (q : Process) (a : Placement) (steps : List Step) : Prop :=
  ∃ anchor c, q.anchor? = some anchor ∧ c ∈ q.conditions ∧ c.coord = a.coord ∧
    (∀ s ∈ steps, a.coord.relativeTo anchor.coord m.conversions = .ok s.coord) ∧
    p.Turns steps c.species a.species

/-- What the parts of the plan call is in the plan, and what they name is in the model. -/
structure Closed (p : Plan) (m : Model) : Prop where
  calls : ∀ d ∈ p.dispatch, ∀ s ∈ d.steps, ∃ u, p.Calls s u ∧
    u.before = s.event.before m.defaultSpecies ∧ u.after = s.event.after m.defaultSpecies
  actions : List.Forall₂ (fun q d => ∃ groups : List (List Step), d.steps = groups.flatten ∧
    List.Forall₂ (p.CarriesOut m q) q.actions groups) m.processes p.dispatch
  updates : ∀ u ∈ p.updates, m.Knows u.tree
  touchups : ∀ t ∈ p.touchups, m.Knows t.tree ∧ ∀ n ∈ t.removals, (m.process? n).isSome = true

end Plan

/-! Completeness. -/

namespace Model

variable {m : Model} {frames : List Frame} {p : Plan}

theorem Rules.generatedNames_nodup (h : m.Rules) (hp : m.compile = .ok p) :
    (m.generatedNames.map folded).Nodup := by
  obtain ⟨frames, plan, hframes, hplan, hcompile⟩ := h.compile_eq
  rw [hplan.claims_eq hframes, hp] at hcompile
  rcases Plan.checkClaims_takenBy [] m.generatedNames List.nodup_nil with
    ⟨-, hnodup⟩ | ⟨name, first, second, herror, -⟩
  · exact hnodup
  · have hfailed : Plan.checkClaims [] m.generatedNames =
        .error (.nameCollision name first second) := herror
    rw [hfailed] at hcompile
    contradiction

theorem Rules.procedureNames_nodup (h : m.Rules) (hp : m.compile = .ok p) :
    (m.events.map fun e => foldCase e.procedureName).Nodup := by
  have hnames := h.generatedNames_nodup hp
  unfold generatedNames at hnames
  rw [List.map_append, List.nodup_append] at hnames
  have hupdates := hnames.1
  rw [List.map_append, List.nodup_append] at hupdates
  have hown := hupdates.2.1
  rw [List.map_map] at hown
  exact hown

end Model

namespace Frame

variable {m : Model} {number : Nat} {q : Process} {f : Frame}

theorem coordAt_siteType (hf : ofProcess m number q = .ok f) {k : Nat} {c : Placement}
    (hk : q.conditions[k]? = some c) :
    (f.coordAt k).layer = c.coord.layer ∧ (f.coordAt k).site = c.coord.site := by
  obtain ⟨anchor, -, -, -, -, hconditions, -⟩ := ofProcess_eq_ok_iff.1 hf
  obtain ⟨c', hc', hframed, -⟩ := forall₂_getElem? (framePlacements_forall₂ hconditions) hk
  obtain ⟨shift, -, heq⟩ := Coordinate.relativeTo_eq_ok hframed
  rw [coordAt_of_getElem? hc', heq]
  exact ⟨rfl, rfl⟩

theorem anchorCoord_siteType (hf : ofProcess m number q = .ok f) {anchor : Placement}
    (hanchor : q.anchor? = some anchor) :
    f.anchorCoord.layer = anchor.coord.layer ∧ f.anchorCoord.site = anchor.coord.site := by
  obtain ⟨-, -, -, -, hplace, -⟩ := ofProcess_eq_ok_iff.1 hf
  exact coordAt_siteType hf (anchor_getElem? hplace hanchor).1

private theorem zipIdx_eq_map_range (cs : List Placement) :
    cs.zipIdx = (List.range cs.length).map fun k => (cs.getD k default, k) := by
  apply List.ext_getElem
  · simp
  · intro k hk _
    have hlt : k < cs.length := by simpa using hk
    simp [List.getD_eq_getElem?_getD, List.getElem?_eq_getElem hlt]

theorem map_head_checks (hf : ofProcess m number q = .ok f) :
    f.checks.map (·.head) = q.checkHeads number := by
  obtain ⟨anchor, hanchor, hnumber, hprocess, hplace, hconditions, -⟩ := ofProcess_eq_ok_iff.1 hf
  have hlength := (framePlacements_forall₂ hconditions).length_eq
  have hsite := anchorCoord_siteType hf hanchor
  unfold checks Process.checkHeads
  rw [hanchor, hplace, List.map_cons, List.map_map, zipIdx_eq_map_range, List.filter_map,
    List.map_map, ← hlength]
  refine congrArg₂ List.cons ?_ ?_
  · simp [anchorCheck, Check.head, hsite, hnumber, hprocess]
  · have hplaces : (List.range q.conditions.length).filter (· != f.anchor) =
        (List.range q.conditions.length).filter
          ((fun c : Placement × Nat => some f.anchor != some c.2) ∘
            fun k => (q.conditions.getD k default, k)) := by
      apply List.filter_congr
      intro k _
      simp [bne, eq_comm]
    rw [hplaces]
    apply List.map_congr_left
    intro k hk
    have hlt := List.mem_range.1 (List.mem_of_mem_filter hk)
    have hk : q.conditions[k]? = some (q.conditions.getD k default) := by
      simp [List.getD_eq_getElem?_getD, List.getElem?_eq_getElem hlt]
    have htype := coordAt_siteType hf hk
    simp [checkFrom, Check.head, Coordinate.atOrigin, Coordinate.withOffset, htype, hnumber,
      hprocess]

theorem steps_eq_ok {defaultSpecies : String} {actions : List Placement} {steps : List Step}
    (h : f.steps defaultSpecies actions = .ok steps) :
    ∃ groups : List (List Step), steps = groups.flatten ∧
      List.Forall₂ (fun a group => ∃ c, f.conditionAt? a.coord = some c ∧
        group = actionSteps defaultSpecies a c.species) actions groups := by
  induction actions generalizing steps with
  | nil =>
    obtain rfl := Except.ok.inj h
    exact ⟨[], rfl, .nil⟩
  | cons a actions ih =>
    obtain ⟨c, rest, hc, hrest, rfl⟩ := steps_cons_eq_ok h
    obtain ⟨groups, rfl, hgroups⟩ := ih hrest
    exact ⟨_ :: groups, rfl, .cons ⟨c, hc, rfl⟩ hgroups⟩

theorem actionSteps_cases (defaultSpecies : String) (action : Placement) (required : String) :
    (action.species = required ∧ actionSteps defaultSpecies action required = []) ∨
    (required = defaultSpecies ∧ action.species ≠ defaultSpecies ∧
      actionSteps defaultSpecies action required = [⟨.put, action.species, action.coord⟩]) ∨
    (required ≠ defaultSpecies ∧ action.species = defaultSpecies ∧
      actionSteps defaultSpecies action required = [⟨.take, required, action.coord⟩]) ∨
    (required ≠ defaultSpecies ∧ action.species ≠ defaultSpecies ∧
      actionSteps defaultSpecies action required =
        [⟨.take, required, action.coord⟩, ⟨.put, action.species, action.coord⟩]) := by
  unfold actionSteps
  by_cases hsame : action.species = required
  · exact .inl ⟨hsame, if_pos hsame⟩
  rw [if_neg hsame]
  by_cases hempty : required = defaultSpecies
  · exact .inr (.inl ⟨hempty, hempty ▸ hsame, if_pos hempty⟩)
  rw [if_neg hempty]
  by_cases hleft : action.species = defaultSpecies
  · exact .inr (.inr (.inl ⟨hempty, hleft, if_pos hleft⟩))
  · exact .inr (.inr (.inr ⟨hempty, hleft, if_neg hleft⟩))

end Frame

theorem Plan.Calls.mem_updates {p : Plan} {s : Step} {u : Update} (h : p.Calls s u) :
    u ∈ p.updates := by
  apply List.mem_of_mem_filter
  rw [h.only]
  exact List.mem_singleton_self u

theorem Plan.Turns.exists_calls {p : Plan} {steps : List Step} {found left : String}
    (h : p.Turns steps found left) {s : Step} (hs : s ∈ steps) : ∃ u, p.Calls s u := by
  induction h with
  | done => simp at hs
  | step call _ ih =>
    rcases List.mem_cons.1 hs with rfl | hs
    · exact ⟨_, call⟩
    · exact ih hs

namespace Plan.CompiledFrom

variable {p : Plan} {m : Model} {frames : List Frame}

theorem map_event_updates (h : p.CompiledFrom m frames) : p.updates.map (·.event) = m.events := by
  obtain ⟨cs, hcs, hupdates⟩ := h.updates
  rw [hupdates, List.map_map, Model.map_event_classifyWith hcs]
  rfl

theorem map_head_checks (h : p.CompiledFrom m frames) (hf : m.frames = .ok frames) :
    p.checks.map (·.head) = m.numberedProcesses.flatMap fun np => np.2.checkHeads np.1 := by
  rw [h.checks, List.map_flatMap, List.flatMap_def, List.flatMap_def]
  congr 1
  exact (map_eq_map_of_forall₂ (Frame.ofProcesses_forall₂ hf)
    fun _ _ hof => (Frame.map_head_checks hof).symm).symm

theorem map_dispatch (h : p.CompiledFrom m frames) (hf : m.frames = .ok frames) :
    (p.dispatch.map fun d => (d.process, d.name)) =
      m.numberedProcesses.map fun np => (np.1, np.2.name) := by
  have hframes : (m.numberedProcesses.map fun np => (np.1, np.2.name)) =
      frames.map fun f => (f.number, f.process.name) := by
    apply map_eq_map_of_forall₂ (Frame.ofProcesses_forall₂ hf)
    intro np f hof
    obtain ⟨-, -, hnumber, hprocess, -⟩ := Frame.ofProcess_eq_ok_iff.1 hof
    rw [hnumber, hprocess]
  rw [hframes]
  symm
  apply map_eq_map_of_forall₂ (Frame.dispatches_forall₂ h.dispatch)
  intro f d hd
  unfold Frame.dispatch at hd
  simp only [bind_eq_ok_iff, pure_eq_ok_iff] at hd
  obtain ⟨steps, -, rfl⟩ := hd
  rfl

theorem map_siteType_touchups (h : p.CompiledFrom m frames) :
    (p.touchups.map fun t => (t.layer, t.site)) = m.siteTypes := by
  rw [h.touchups, List.map_map, Model.siteConstants, List.map_map, ← Model.map_sites]
  rfl

theorem complete (h : p.CompiledFrom m frames) (hm : m.Rules) (hf : m.frames = .ok frames)
    (hp : m.compile = .ok p) : p.Complete m := by
  refine ⟨?_, ?_, hm.siteTypes_nodup, h.map_siteType_touchups, h.map_dispatch hf,
    h.map_head_checks hf⟩
  · rw [h.map_event_updates]
    exact (hm.procedureNames_nodup hp).of_map _
  · intro e
    rw [h.map_event_updates]
    exact Model.mem_events_iff

/-! Closure. -/

private theorem filter_eq_singleton {α β : Type} [DecidableEq β] {f : α → β} {as : List α}
    (h : (as.map f).Nodup) {a : α} (ha : a ∈ as) : (as.filter fun b => f b = f a) = [a] := by
  induction as with
  | nil => simp at ha
  | cons b as ih =>
    rw [List.map_cons, List.nodup_cons] at h
    rcases List.mem_cons.1 ha with rfl | ha
    · have hrest : (as.filter fun b => f b = f a) = [] := by
        apply List.filter_eq_nil_iff.2
        intro c hc heq
        exact h.1 (of_decide_eq_true heq ▸ List.mem_map_of_mem hc)
      rw [List.filter_cons_of_pos (by simp), hrest]
    · have hne : f b ≠ f a := fun heq => h.1 (heq ▸ List.mem_map_of_mem ha)
      rw [List.filter_cons_of_neg (by simpa using hne)]
      exact ih h.2 ha

theorem exists_calls (h : p.CompiledFrom m frames) (hm : m.Rules) (hp : m.compile = .ok p)
    {s : Step} (hs : s.event ∈ m.events) : ∃ u, p.Calls s u := by
  rw [← h.map_event_updates] at hs
  obtain ⟨u, hu, hevent⟩ := List.mem_map.1 hs
  have hname : ∀ v ∈ p.updates, v.name = v.event.procedureName := by
    intro v hv
    obtain ⟨c, -, rfl⟩ := h.exists_ofEvent hv
    rfl
  have hnodup : (p.updates.map fun v => foldCase v.name).Nodup := by
    have hnames := hm.procedureNames_nodup hp
    rw [← h.map_event_updates, List.map_map] at hnames
    rw [List.map_congr_left fun v hv => congrArg foldCase (hname v hv)]
    exact hnames
  have hcalled : u.name = s.procedure := by
    rw [hname u hu, hevent]
    rfl
  refine ⟨u, ?_, hcalled, hevent⟩
  rw [← hcalled]
  exact filter_eq_singleton hnodup hu

theorem species_of_calls (h : p.CompiledFrom m frames) {s : Step} {u : Update}
    (hcall : p.Calls s u) :
    u.before = s.event.before m.defaultSpecies ∧ u.after = s.event.after m.defaultSpecies := by
  rw [← hcall.event]
  exact h.species_update hcall.mem_updates

variable {a : Placement} {required : String}

theorem put_mem_events (hm : m.Rules) (ha : m.Declares a) (hne : a.species ≠ m.defaultSpecies) :
    (Step.mk .put a.species a.coord).event ∈ m.events :=
  Model.mem_events ha.species hne (hm.hasSiteType_iff.1 ha.siteType)

theorem take_mem_events (hm : m.Rules) (ha : m.Declares a) (hrequired : required ∈ m.species)
    (hne : required ≠ m.defaultSpecies) : (Step.mk .take required a.coord).event ∈ m.events :=
  Model.mem_events hrequired hne (hm.hasSiteType_iff.1 ha.siteType)

theorem mem_events_of_mem_actionSteps (hm : m.Rules) (ha : m.Declares a)
    (hrequired : required ∈ m.species) {s : Step}
    (hs : s ∈ Frame.actionSteps m.defaultSpecies a required) :
    s.event ∈ m.events ∧ s.coord = a.coord := by
  rcases Frame.actionSteps_cases m.defaultSpecies a required with
    ⟨-, heq⟩ | ⟨-, hput, heq⟩ | ⟨htake, -, heq⟩ | ⟨htake, hput, heq⟩
  · simp [heq] at hs
  · obtain rfl := List.mem_singleton.1 (heq ▸ hs)
    exact ⟨put_mem_events hm ha hput, rfl⟩
  · obtain rfl := List.mem_singleton.1 (heq ▸ hs)
    exact ⟨take_mem_events hm ha hrequired htake, rfl⟩
  · rcases List.mem_cons.1 (heq ▸ hs) with rfl | hs
    · exact ⟨take_mem_events hm ha hrequired htake, rfl⟩
    · obtain rfl := List.mem_singleton.1 hs
      exact ⟨put_mem_events hm ha hput, rfl⟩

theorem turns_cons (h : p.CompiledFrom m frames) (hm : m.Rules) (hp : m.compile = .ok p)
    {s : Step} (hs : s.event ∈ m.events) {steps : List Step} {left : String}
    (hrest : p.Turns steps (s.event.after m.defaultSpecies) left) :
    p.Turns (s :: steps) (s.event.before m.defaultSpecies) left := by
  obtain ⟨u, hcall⟩ := h.exists_calls hm hp hs
  obtain ⟨hbefore, hafter⟩ := h.species_of_calls hcall
  rw [← hafter] at hrest
  rw [← hbefore]
  exact .step hcall hrest

theorem turns_actionSteps (h : p.CompiledFrom m frames) (hm : m.Rules) (hp : m.compile = .ok p)
    (ha : m.Declares a) (hrequired : required ∈ m.species) :
    p.Turns (Frame.actionSteps m.defaultSpecies a required) required a.species := by
  rcases Frame.actionSteps_cases m.defaultSpecies a required with
    ⟨hsame, heq⟩ | ⟨hempty, hput, heq⟩ | ⟨htake, hleft, heq⟩ | ⟨htake, hput, heq⟩ <;> rw [heq]
  · rw [hsame]
    exact .done _
  · rw [hempty]
    exact h.turns_cons hm hp (put_mem_events hm ha hput) (.done _)
  · rw [hleft]
    exact h.turns_cons hm hp (take_mem_events hm ha hrequired htake) (.done _)
  · apply h.turns_cons hm hp (take_mem_events hm ha hrequired htake)
    exact h.turns_cons hm hp (put_mem_events hm ha hput) (.done _)

/-- A framed action meets the framed image of the condition that is declared where the action is. -/
theorem carriesOut_actionSteps (h : p.CompiledFrom m frames) (hm : m.Rules)
    (hp : m.compile = .ok p) {number : Nat} {q : Process} {f : Frame} (hq : m.ProcessRules q)
    (hf : Frame.ofProcess m number q = .ok f) {a' c' : Placement} (ha : a ∈ q.actions)
    {anchor : Placement} (hanchor : q.anchor? = some anchor)
    (ha' : a.coord.relativeTo anchor.coord m.conversions = .ok a'.coord ∧ a'.species = a.species)
    (hc' : f.conditionAt? a'.coord = some c') :
    p.CarriesOut m q a (Frame.actionSteps m.defaultSpecies a' c'.species) := by
  obtain ⟨anchor', hanchor', -, -, hplace, hconditions, -⟩ := Frame.ofProcess_eq_ok_iff.1 hf
  obtain rfl : anchor' = anchor := Option.some.inj (hanchor'.symm.trans hanchor)
  obtain ⟨hmem, hcoord⟩ := Frame.conditionAt?_eq_some hc'
  obtain ⟨c, hc, hframed, hspecies⟩ :=
    forall₂_mem (Frame.framePlacements_forall₂ hconditions) hmem
  have hdeclares := hq.conditions c hc
  have hao := hq.conditions _ (List.mem_of_getElem? (Frame.anchor_getElem? hplace hanchor).1)
  have had := (hq.actions a ha).1
  have hsame : c.coord = a.coord :=
    Coordinate.relativeTo_inj hm hdeclares.offset had.offset hao.offset hframed
      (hcoord ▸ ha'.1)
  have hdeclared : m.Declares a' := had.framed hm hao.offset ha'.1 ha'.2
  refine ⟨anchor', c, hanchor, hc, hsame, ?_, ?_⟩
  · intro s hs
    rw [(mem_events_of_mem_actionSteps hm hdeclared (hspecies ▸ hdeclares.species) hs).2]
    exact ha'.1
  · rw [← ha'.2, ← hspecies]
    exact h.turns_actionSteps hm hp hdeclared (hspecies ▸ hdeclares.species)

theorem carriesOut_dispatch (h : p.CompiledFrom m frames) (hm : m.Rules) (hp : m.compile = .ok p)
    {number : Nat} {q : Process} {f : Frame} (hq : m.ProcessRules q)
    (hf : Frame.ofProcess m number q = .ok f) {d : Dispatch}
    (hd : f.dispatch m.defaultSpecies = .ok d) :
    ∃ groups : List (List Step), d.steps = groups.flatten ∧
      List.Forall₂ (p.CarriesOut m q) q.actions groups := by
  obtain ⟨anchor, hanchor, -, -, -, -, hactions⟩ := Frame.ofProcess_eq_ok_iff.1 hf
  obtain ⟨groups, hflatten, hgroups⟩ := Frame.steps_eq_ok (Frame.dispatch_eq_ok hd)
  refine ⟨groups, hflatten, ?_⟩
  have hframed := (List.forall₂_and_left _ _).2
    ⟨fun a ha => ha, Frame.framePlacements_forall₂ hactions⟩
  apply forall₂_comp hframed hgroups
  rintro a a' group ⟨ha, ha'⟩ ⟨c', hc', rfl⟩
  exact h.carriesOut_actionSteps hm hp hq hf ha hanchor ha' hc'

theorem closed (h : p.CompiledFrom m frames) (hm : m.Rules) (hf : m.frames = .ok frames)
    (hp : m.compile = .ok p) : p.Closed m := by
  have hprocesses : m.processes = m.numberedProcesses.map (·.2) := by
    simp [Model.numberedProcesses, Function.comp_def]
  have hactions : List.Forall₂ (fun q d => ∃ groups : List (List Step),
      d.steps = groups.flatten ∧ List.Forall₂ (p.CarriesOut m q) q.actions groups)
      m.processes p.dispatch := by
    rw [hprocesses, List.forall₂_map_left_iff]
    have hframes := (List.forall₂_and_left _ _).2
      ⟨fun np hnp => hm.processes _ (Model.mem_processes_of_numbered hnp),
        Frame.ofProcesses_forall₂ hf⟩
    apply forall₂_comp hframes (Frame.dispatches_forall₂ h.dispatch)
    rintro np f d ⟨hq, hof⟩ hd
    exact h.carriesOut_dispatch hm hp hq hof hd
  refine ⟨?_, hactions, fun u hu => h.knows_update hm hf hu,
    fun t ht => ⟨h.knows_touchup hm hf ht, h.removals_declared hm hf ht⟩⟩
  intro d hd s hs
  obtain ⟨q, -, groups, hflatten, hgroups⟩ := forall₂_mem hactions hd
  rw [hflatten] at hs
  obtain ⟨group, hgroup, hs⟩ := List.mem_flatten.1 hs
  obtain ⟨a, -, anchor, c, -, -, -, -, hturns⟩ := forall₂_mem hgroups hgroup
  obtain ⟨u, hcall⟩ := hturns.exists_calls hs
  exact ⟨u, hcall, h.species_of_calls hcall⟩

end Plan.CompiledFrom

/-- The plan of every model that was built and compiles is complete and closed. -/
theorem compiled_plan_is_complete_and_closed {d : Draft} {m : Model} {p : Plan}
    (hd : d.build = .ok m) (hp : m.compile = .ok p) : p.Complete m ∧ p.Closed m := by
  obtain ⟨hrules, -⟩ := Draft.build_eq_ok hd
  obtain ⟨frames, hframes, hplan⟩ := Model.compile_eq_ok hp
  exact ⟨hplan.complete hrules hframes hp, hplan.closed hrules hframes hp⟩

/-- Two species, two site types and both directions make eight updates; replacing `O` by `CO` takes
two of them. -/
theorem oxidation_plan_is_complete_and_closed :
    ∃ m p, Samples.carbonMonoxideOxidation.build = .ok m ∧ m.compile = .ok p ∧
      p.updates.length = 8 ∧
      (p.dispatch[7]?.map fun d => d.steps.map (·.procedure)) =
        some ["take_O_ruo2_bridge", "put_CO_ruo2_bridge"] ∧
      p.Complete m ∧ p.Closed m := by
  have h : (do
      let m ← Samples.carbonMonoxideOxidation.build.toOption
      let p ← m.compile.toOption
      guard (p.updates.length = 8 ∧
        (p.dispatch[7]?.map fun d => d.steps.map (·.procedure)) =
          some ["take_O_ruo2_bridge", "put_CO_ruo2_bridge"])) = some () := by
    decide +kernel
  simp only [Option.bind_eq_bind, Option.bind_eq_some_iff, toOption_eq_some_iff,
    Option.guard_eq_some'] at h
  obtain ⟨m, hm, p, hp, hupdates, hswap⟩ := h
  exact ⟨m, p, hm, hp, hupdates, hswap, compiled_plan_is_complete_and_closed hm hp⟩

end LatticeKinetics
