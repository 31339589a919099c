import LatticeKinetics.Proofs.PlanClosure
import LatticeKinetics.Text.Number
import Mathlib.Algebra.Group.Int.Defs
import Mathlib.Algebra.Group.Nat.Defs
import Mathlib.Data.List.Zip

/-! How far the coordinates of a plan can lie apart. Where a model keeps to the numbers of the
machine, each coordinate of its plan is a sum of a few of them. -/

namespace LatticeKinetics

open Text

/-- Offsets and shifts are 32-bit numbers, and everything can be counted with 64 bits. -/
@[mk_iff]
structure Model.MachineSized (m : Model) : Prop where
  offsets : ∀ q ∈ m.processes, ∀ c ∈ q.conditions ++ q.actions, ∀ x ∈ c.coord.offset,
    fitsWord32 x = true
  shifts : ∀ e ∈ m.conversions.entries, ∀ x ∈ e.shift, fitsWord32 x = true
  species : m.species.length < 2 ^ 64
  layers : m.layers.length < 2 ^ 64
  sites : m.sitesPerCell < 2 ^ 64
  processes : m.processes.length < 2 ^ 64

instance (m : Model) : Decidable m.MachineSized :=
  decidable_of_iff _ (Model.machineSized_iff m).symm

namespace Coordinate

def Within (bound : Int) (c : Coordinate) : Prop :=
  ∀ x ∈ c.offset, -bound ≤ x ∧ x ≤ bound

theorem Within.mono {bound larger : Int} {c : Coordinate} (h : c.Within bound)
    (hle : bound ≤ larger) : c.Within larger := by
  intro x hx
  have := h x hx
  omega

theorem exists_of_mem_zipWith {f : Int → Int → Int} {as bs : List Int} {x : Int}
    (h : x ∈ List.zipWith f as bs) : ∃ a ∈ as, ∃ b ∈ bs, x = f a b := by
  rw [← List.map_uncurry_zip_eq_zipWith] at h
  obtain ⟨⟨a, b⟩, hab, rfl⟩ := List.mem_map.1 h
  obtain ⟨ha, hb⟩ := List.of_mem_zip hab
  exact ⟨a, ha, b, hb, rfl⟩

theorem Within.displacement {bound : Int} {c d : Coordinate} (hc : c.Within bound)
    (hd : d.Within bound) : (c.displacement d).Within (2 * bound) := by
  intro x hx
  obtain ⟨a, ha, b, hb, rfl⟩ := exists_of_mem_zipWith hx
  have := hd a ha
  have := hc b hb
  omega

theorem within_of_fitsWord32 {c : Coordinate} (h : ∀ x ∈ c.offset, fitsWord32 x = true) :
    c.Within 2147483648 := by
  intro x hx
  have hfits := h x hx
  simp only [fitsWord32, Bool.and_eq_true, decide_eq_true_eq] at hfits
  omega

theorem within_axis {bound : Int} {c : Coordinate} (h : c.Within bound) (hbound : 0 ≤ bound)
    (n : Nat) : -bound ≤ c.axis n ∧ c.axis n ≤ bound := by
  unfold axis
  rw [List.getD_eq_getElem?_getD]
  cases hn : c.offset[n]? with
  | none =>
    change -bound ≤ 0 ∧ 0 ≤ bound
    omega
  | some x => exact h x (List.mem_of_getElem? hn)

end Coordinate

def Tree.Within (bound : Int) (t : Tree Effect) : Prop :=
  (∀ e ∈ t.payloads, e.location.Within bound) ∧ ∀ c ∈ t.queries, c.Within bound

/-- The largest offset between two conditions of a process. -/
def reach : Int := 12884901888

structure Plan.InReach (p : Plan) : Prop where
  checks : ∀ c ∈ p.checks, ∀ q ∈ c.conditions, q.coord.Within reach
  updates : ∀ u ∈ p.updates, u.tree.Within reach
  touchups : ∀ t ∈ p.touchups, t.tree.Within reach
  dispatch : ∀ d ∈ p.dispatch, ∀ s ∈ d.steps, s.coord.Within reach

namespace Model

variable {m : Model} {frames : List Frame} {f : Frame}

/-- Seen from the anchor, an offset is a difference of two, with a shift. -/
theorem MachineSized.within_relativeTo (hm : m.MachineSized) {target origin framed : Coordinate}
    (htarget : target.Within 2147483648) (horigin : origin.Within 2147483648)
    (h : target.relativeTo origin m.conversions = .ok framed) : framed.Within 6442450944 := by
  obtain ⟨shift, hshift, rfl⟩ := Coordinate.relativeTo_eq_ok h
  have hbound : ∀ x ∈ shift, -2147483648 ≤ x ∧ x ≤ 2147483648 := by
    rcases ConversionTable.shift_eq_ok hshift with rfl | ⟨e, he, rfl⟩
    · decide
    · exact Coordinate.within_of_fitsWord32 (c := ⟨e.shift, "", ""⟩) (hm.shifts e he)
  intro x hx
  obtain ⟨y, hy, s, hs, rfl⟩ := Coordinate.exists_of_mem_zipWith hx
  obtain ⟨a, ha, b, hb, rfl⟩ := Coordinate.exists_of_mem_zipWith hy
  have := htarget a ha
  have := horigin b hb
  have := hbound s hs
  omega

theorem MachineSized.within_conditions (hm : m.MachineSized) (h : m.Rules)
    (hf : m.frames = .ok frames) (hmem : f ∈ frames) :
    ∀ c ∈ f.conditions, c.coord.Within 6442450944 := by
  obtain ⟨i, hi⟩ := List.getElem?_of_mem hmem
  obtain ⟨q, hq, hof, -⟩ := frames_getElem? h hf hi
  obtain ⟨origin, horigin, -, -, -, hconditions, -⟩ := Frame.ofProcess_eq_ok_iff.1 hof
  have hdeclared (c : Placement) (hc : c ∈ q.conditions) : c.coord.Within 2147483648 :=
    Coordinate.within_of_fitsWord32
      (hm.offsets q (List.mem_of_getElem? hq) c (List.mem_append_left _ hc))
  intro c hc
  obtain ⟨d, hd, hframed, -⟩ := forall₂_mem (Frame.framePlacements_forall₂ hconditions) hc
  exact hm.within_relativeTo (hdeclared d hd)
    (hdeclared origin (List.mem_of_find?_eq_some horigin)) hframed

theorem MachineSized.within_conditionsFrom (hm : m.MachineSized) (h : m.Rules)
    (hf : m.frames = .ok frames) (hmem : f ∈ frames) {k : Nat} {c : Placement}
    (hc : f.conditions[k]? = some c) :
    (f.anchorFrom k).Within reach ∧ ∀ q ∈ f.conditionsFrom k, q.coord.Within reach := by
  have hwithin := hm.within_conditions h hf hmem
  have horigin : (f.coordAt k).Within 6442450944 := by
    rw [Frame.coordAt_of_getElem? hc]
    exact hwithin c (List.mem_of_getElem? hc)
  obtain ⟨a, ha⟩ := (frameRules h hf hmem).anchor
  have hanchor : f.anchorCoord.Within 6442450944 := by
    rw [Frame.anchorCoord, Frame.coordAt_of_getElem? ha]
    exact hwithin a (List.mem_of_getElem? ha)
  refine ⟨horigin.displacement hanchor, ?_⟩
  intro q hq
  obtain ⟨d, hd, rfl⟩ := List.mem_map.1 hq
  exact horigin.displacement (hwithin d hd)

theorem within_synthesize {bound : Int} {items : List (Item Effect)}
    (h : ∀ i ∈ items, i.payload.location.Within bound ∧
      ∀ q ∈ i.questions, q.coord.Within bound) : (Tree.synthesize items).Within bound := by
  constructor
  · intro e he
    obtain ⟨i, hi, rfl⟩ := List.mem_map.1 ((Tree.payloads_synthesize_perm items).mem_iff.1 he)
    exact (h i hi).1
  · intro c hc
    obtain ⟨i, hi, q, hq, rfl⟩ :=
      Synthesis.mem_questionCoords.1 (Tree.queries_synthesize_subset items hc)
    exact (h i hi).2 q hq

end Model

namespace Plan.CompiledFrom

variable {p : Plan} {m : Model} {frames : List Frame}

theorem within_update (h : p.CompiledFrom m frames) (hm : m.MachineSized) (hrules : m.Rules)
    (hf : m.frames = .ok frames) {u : Update} (hu : u ∈ p.updates) : u.tree.Within reach := by
  obtain ⟨c, hc, hupdate⟩ := h.exists_ofEvent hu
  obtain ⟨-, henables, hdisables⟩ := Classification.ofEvent_eq_ok hc
  have htouched : ∀ o ∈ Classification.touched frames u.event,
      (o.frame.anchorFrom o.place).Within reach ∧
        ∀ q ∈ o.frame.conditionsFrom o.place, q.coord.Within reach := by
    intro o ho
    obtain ⟨hmem, hcondition⟩ := Classification.mem_occurrences.1 (List.mem_of_mem_filter ho)
    exact hm.within_conditionsFrom hrules hf hmem hcondition
  rw [hupdate]
  apply Model.within_synthesize
  intro i hi
  unfold Classification.items at hi
  rw [henables, hdisables, List.map_map, List.map_map] at hi
  rcases List.mem_append.1 hi with hi | hi
  · obtain ⟨o, ho, rfl⟩ := List.mem_map.1 hi
    exact ⟨(htouched o (List.mem_of_mem_filter ho)).1, nofun⟩
  · obtain ⟨o, ho, rfl⟩ := List.mem_map.1 hi
    obtain ⟨hanchor, hconditions⟩ := htouched o (List.mem_of_mem_filter ho)
    exact ⟨hanchor, fun q hq => hconditions q (List.mem_of_mem_eraseIdx hq)⟩

theorem within_touchup (h : p.CompiledFrom m frames) (hm : m.MachineSized) (hrules : m.Rules)
    (hf : m.frames = .ok frames) {t : Touchup} (ht : t ∈ p.touchups) : t.tree.Within reach := by
  rw [h.touchups] at ht
  obtain ⟨s, -, rfl⟩ := List.mem_map.1 ht
  apply Model.within_synthesize
  intro i hi
  obtain ⟨f, hmem, rfl⟩ := List.mem_map.1 hi
  have hmem := List.mem_of_mem_filter hmem
  obtain ⟨c, hc⟩ := (Model.frameRules hrules hf hmem).anchor
  refine ⟨?_, (hm.within_conditionsFrom hrules hf hmem hc).2⟩
  have hanchor := hm.within_conditions hrules hf hmem c (List.mem_of_getElem? hc)
  change f.anchorCoord.Within reach
  rw [Frame.anchorCoord, Frame.coordAt_of_getElem? hc]
  exact hanchor.mono (by decide)

theorem within_check (h : p.CompiledFrom m frames) (hm : m.MachineSized) (hrules : m.Rules)
    (hf : m.frames = .ok frames) {c : Check} (hc : c ∈ p.checks) :
    ∀ q ∈ c.conditions, q.coord.Within reach := by
  rw [h.checks] at hc
  obtain ⟨f, hmem, hc⟩ := List.mem_flatMap.1 hc
  unfold Frame.checks at hc
  rcases List.mem_cons.1 hc with rfl | hc
  · obtain ⟨a, ha⟩ := (Model.frameRules hrules hf hmem).anchor
    exact (hm.within_conditionsFrom hrules hf hmem ha).2
  · obtain ⟨k, hk, rfl⟩ := List.mem_map.1 hc
    have hlt : k < f.conditions.length := List.mem_range.1 (List.mem_of_mem_filter hk)
    exact (hm.within_conditionsFrom hrules hf hmem (List.getElem?_eq_getElem hlt)).2

theorem within_step (h : p.CompiledFrom m frames) (hm : m.MachineSized) (hrules : m.Rules)
    (hf : m.frames = .ok frames) (hp : m.compile = .ok p) {d : Dispatch} (hd : d ∈ p.dispatch) :
    ∀ s ∈ d.steps, s.coord.Within reach := by
  intro s hs
  obtain ⟨q, hq, groups, hflatten, hgroups⟩ := forall₂_mem (h.closed hrules hf hp).actions hd
  rw [hflatten] at hs
  obtain ⟨group, hgroup, hs⟩ := List.mem_flatten.1 hs
  obtain ⟨a, ha, anchor, c, hanchor, -, -, hcoord, -⟩ := forall₂_mem hgroups hgroup
  have hdeclared (b : Placement) (hb : b ∈ q.conditions ++ q.actions) :
      b.coord.Within 2147483648 :=
    Coordinate.within_of_fitsWord32 (hm.offsets q hq b hb)
  have hwithin := hm.within_relativeTo (hdeclared a (List.mem_append_right _ ha))
    (hdeclared anchor (List.mem_append_left _ (List.mem_of_find?_eq_some hanchor))) (hcoord s hs)
  exact hwithin.mono (by decide)

theorem inReach (h : p.CompiledFrom m frames) (hm : m.MachineSized) (hrules : m.Rules)
    (hf : m.frames = .ok frames) (hp : m.compile = .ok p) : p.InReach :=
  ⟨fun _ hc => h.within_check hm hrules hf hc, fun _ hu => h.within_update hm hrules hf hu,
    fun _ ht => h.within_touchup hm hrules hf ht,
    fun _ hd => h.within_step hm hrules hf hp hd⟩

end Plan.CompiledFrom
end LatticeKinetics
