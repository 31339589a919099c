import LatticeKinetics.Proofs.PlanItems
import LatticeKinetics.Proofs.TreeBranches
import LatticeKinetics.Report
import LatticeKinetics.Samples

/-! A report says what the passes of the compilation found. It counts what the finished trees fire
and query; as synthesis neither loses nor repeats a payload, the counts are those of the
classification from which the trees were made. -/

namespace LatticeKinetics

structure UpdateStats.Summarises (e : UpdateStats) (c : Classification) : Prop where
  event : e.event = c.event
  enables : e.enables = c.enables.length
  disables : e.disables = c.disables.length

def Plan.trees (p : Plan) : List (Tree Effect) :=
  p.updates.map (·.tree) ++ p.touchups.map (·.tree)

namespace Classification

theorem countP_payloads (c : Classification) (p : Effect → Bool) :
    (Tree.synthesize c.items).payloads.countP p =
      c.disables.countP (fun d => p (.disable d.process d.location)) +
        c.enables.countP fun e => p (.enable e.process e.location) := by
  have hperm := Tree.payloads_synthesize_perm c.items
  rw [hperm.countP_eq, items, List.map_append, List.countP_append, List.countP_map,
    List.countP_map, List.countP_map, List.countP_map]
  rfl

theorem summarises_update (c : Classification) (defaultSpecies : String) :
    (c.update defaultSpecies).stats.Summarises c where
  event := rfl
  enables := (c.countP_payloads (·.isEnable)).trans (by simp [Effect.isEnable])
  disables := (c.countP_payloads (!·.isEnable)).trans (by simp [Effect.isEnable])

theorem isEmpty_of_summarises {c : Classification} {e : UpdateStats} (h : e.Summarises c) :
    (e.enables == 0 && e.disables == 0) = c.isEmpty := by
  rw [h.enables, h.disables, isEmpty]
  cases c.enables <;> cases c.disables <;> rfl

end Classification

namespace Model

variable {m : Model} {frames : List Frame}

theorem anchored_eq (s : SiteConstant) (frames : List Frame) :
    s.anchored frames =
      frames.filter fun f => (f.anchorCoord.layer, f.anchorCoord.site) = (s.layer, s.site) := by
  apply List.filter_congr
  intro f _
  rw [Bool.and_comm, Bool.eq_iff_iff, Bool.and_eq_true, beq_iff_eq, beq_iff_eq, decide_eq_true_eq,
    Prod.mk.injEq]

/-- Each frame is anchored on one of the site types. -/
theorem flatMap_anchored_perm (h : m.Rules) (hf : m.frames = .ok frames) :
    (m.siteConstants.flatMap fun s => s.anchored frames).Perm frames := by
  have htypes : m.siteConstants.map (fun s => (s.layer, s.site)) = m.siteTypes := by
    rw [← map_sites, siteConstants, List.map_map]
    rfl
  have hgroups := List.flatMap_map (fun s : SiteConstant => (s.layer, s.site))
    (fun t => frames.filter fun f => (f.anchorCoord.layer, f.anchorCoord.site) = t)
    m.siteConstants
  rw [htypes] at hgroups
  simp only [anchored_eq, ← hgroups]
  apply flatMap_filter_perm (fun f : Frame => (f.anchorCoord.layer, f.anchorCoord.site))
    h.siteTypes_nodup
  intro f hmem
  exact h.hasSiteType_iff.1 (frameRules h hf hmem).declares_anchor.1

theorem length_frames (hf : m.frames = .ok frames) : frames.length = m.processes.length := by
  have hlength := (Frame.ofProcesses_forall₂ hf).length_eq
  rw [← hlength, numberedProcesses, List.length_map, List.length_zipIdx]

theorem eq_of_event_eq {cs : List Classification} (hcs : m.classifyWith frames = .ok cs)
    {c c' : Classification} (hc : c ∈ cs) (hc' : c' ∈ cs) (h : c.event = c'.event) : c = c' := by
  have hforall := Classification.ofEvents_forall₂ hcs
  obtain ⟨e, -, he⟩ := forall₂_mem hforall hc
  obtain ⟨e', -, he'⟩ := forall₂_mem hforall hc'
  obtain rfl := (Classification.ofEvent_eq_ok he).1
  obtain rfl := (Classification.ofEvent_eq_ok he').1
  rw [h] at he
  exact Except.ok.inj (he.symm.trans he')

end Model

namespace Plan.CompiledFrom

variable {p : Plan} {m : Model} {frames : List Frame}

theorem totalProcesses (h : p.CompiledFrom m frames) (hm : m.Rules) (hf : m.frames = .ok frames) :
    (p.report.touchups.map (·.processes)).sum = m.processes.length := by
  calc (p.report.touchups.map (·.processes)).sum
    _ = (m.siteConstants.map fun s => (s.anchored frames).length).sum := by
        unfold report
        rw [h.touchups, List.map_map, List.map_map]
        refine congrArg List.sum (List.map_congr_left fun s _ => ?_)
        exact List.length_map _
    _ = (m.siteConstants.flatMap fun s => s.anchored frames).length :=
        List.length_flatMap.symm
    _ = frames.length := (Model.flatMap_anchored_perm hm hf).length_eq
    _ = m.processes.length := Model.length_frames hf

end Plan.CompiledFrom

namespace Plan

theorem totalQueries_report (p : Plan) :
    p.report.totalQueries = (p.trees.flatMap (·.branches)).length := by
  unfold Report.totalQueries report trees
  rw [← List.sum_eq_foldl_nat, List.length_flatMap, List.map_append, List.map_map, List.map_map,
    List.map_map, List.map_map]
  simp only [Tree.length_branches]
  rfl

theorem map_event_idleEvents {p : Plan} {cs : List Classification}
    (h : List.Forall₂ (·.Summarises ·) p.report.events cs) :
    p.report.idleEvents.map (·.event) = (cs.filter (·.isEmpty)).map (·.event) := by
  unfold Report.idleEvents
  generalize p.report.events = entries at h ⊢
  induction h with
  | nil => rfl
  | @cons e c es cs hec hrest ih =>
    rw [List.filter_cons, List.filter_cons, Classification.isEmpty_of_summarises hec]
    cases c.isEmpty with
    | false => exact ih
    | true => exact congrArg₂ List.cons hec.event ih

end Plan

/-- The report of a compiled plan has one entry for each classified event, with as many processes
as this enables and disables, and the idle ones are those that affect no process. Its touch-ups
account for every process, and its queries are those of all trees. -/
theorem report_agrees_with_passes {d : Draft} {m : Model} {p : Plan} (hd : d.build = .ok m)
    (hp : m.compile = .ok p) :
    ∃ cs, m.classify = .ok cs ∧
      List.Forall₂ (·.Summarises ·) p.report.events cs ∧
      (∀ c ∈ cs, c.event ∈ p.report.idleEvents.map (·.event) ↔ c.isEmpty = true) ∧
      (p.report.touchups.map (·.processes)).sum = m.processes.length ∧
      p.report.totalQueries = (p.trees.flatMap (·.branches)).length := by
  obtain ⟨hrules, -⟩ := Draft.build_eq_ok hd
  obtain ⟨frames, hframes, hplan⟩ := Model.compile_eq_ok hp
  obtain ⟨cs, hcs, hupdates⟩ := hplan.updates
  have hclassify : m.classify = .ok cs := by
    rw [Model.classify, hframes]
    exact hcs
  have hevents : List.Forall₂ (·.Summarises ·) p.report.events cs := by
    unfold Plan.report
    rw [hupdates, List.map_map, List.forall₂_map_left_iff]
    exact List.forall₂_same.2 fun c _ => c.summarises_update m.defaultSpecies
  refine ⟨cs, hclassify, hevents, ?_, hplan.totalProcesses hrules hframes,
    p.totalQueries_report⟩
  intro c hc
  rw [Plan.map_event_idleEvents hevents]
  constructor
  · intro hidle
    obtain ⟨c', hc', hevent⟩ := List.mem_map.1 hidle
    obtain ⟨hc', hempty⟩ := List.mem_filter.1 hc'
    obtain rfl := Model.eq_of_event_eq hcs hc' hc hevent
    exact hempty
  · exact fun hempty => List.mem_map_of_mem (List.mem_filter.2 ⟨hc, hempty⟩)

def Samples.idleDeck : Draft :=
  { twoLayerChain with
    processes := [adsorb "land" (bottom 0) "A" "k_land",
      hop "drift" (bottom 0) (bottom 1) "A" "k_drift"] }

/-- On the deck nothing can be enabled or disabled, and its touch-up has no process. -/
theorem idle_deck_report_agrees_with_passes :
    ∃ m p cs, Samples.idleDeck.build = .ok m ∧ m.compile = .ok p ∧ m.classify = .ok cs ∧
      cs.map (fun c => (c.enables.length, c.disables.length)) = [(1, 2), (2, 1), (0, 0), (0, 0)] ∧
      p.report.idleEvents.map (·.event.procedureName) = ["put_A_top_t", "take_A_top_t"] ∧
      p.report.touchups.map (·.processes) = [2, 0] ∧ p.report.totalQueries = 4 ∧
      List.Forall₂ (·.Summarises ·) p.report.events cs ∧
      (∀ c ∈ cs, c.event ∈ p.report.idleEvents.map (·.event) ↔ c.isEmpty = true) ∧
      (p.report.touchups.map (·.processes)).sum = m.processes.length ∧
      p.report.totalQueries = (p.trees.flatMap (·.branches)).length := by
  have h : (do
      let m ← Samples.idleDeck.build.toOption
      let p ← m.compile.toOption
      let cs ← m.classify.toOption
      guard (cs.map (fun c => (c.enables.length, c.disables.length)) =
          [(1, 2), (2, 1), (0, 0), (0, 0)] ∧
        p.report.idleEvents.map (·.event.procedureName) = ["put_A_top_t", "take_A_top_t"] ∧
        p.report.touchups.map (·.processes) = [2, 0] ∧ p.report.totalQueries = 4)) = some () := by
    decide +kernel
  simp only [Option.bind_eq_bind, Option.bind_eq_some_iff, toOption_eq_some_iff,
    Option.guard_eq_some'] at h
  obtain ⟨m, hm, p, hp, cs, hcs, hcounts, hidle, htouchups, hqueries⟩ := h
  obtain ⟨cs', hcs', hagrees⟩ := report_agrees_with_passes hm hp
  obtain rfl := Except.ok.inj (hcs'.symm.trans hcs)
  exact ⟨m, p, cs', hm, hp, hcs, hcounts, hidle, htouchups, hqueries, hagrees⟩

end LatticeKinetics
