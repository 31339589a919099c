import LatticeKinetics.Proofs.KernelTouchup
import LatticeKinetics.Proofs.PlanClosure
import LatticeKinetics.Samples

/-! The checks of a process. Each starts on the site of another condition and looks at all of them
from there; what it finds is what the anchor's check finds from the site on which the anchor is. -/

namespace LatticeKinetics

namespace Frame

variable {f : Frame} {c : Check}

theorem mem_checks_iff :
    c ∈ f.checks ↔
      c = f.anchorCheck ∨ ∃ n < f.conditions.length, n ≠ f.anchor ∧ c = f.checkFrom n := by
  unfold checks
  simp only [List.mem_cons, List.mem_map, List.mem_filter, List.mem_range, bne_iff_ne]
  constructor
  · rintro (h | ⟨n, ⟨hn, hne⟩, rfl⟩)
    · exact .inl h
    · exact .inr ⟨n, hn, hne, rfl⟩
  · rintro (h | ⟨n, hn, hne, rfl⟩)
    · exact .inl h
    · exact .inr ⟨n, ⟨hn, hne⟩, rfl⟩

end Frame

theorem Plan.CompiledFrom.numbered_check_iff {p : Plan} {m : Model} {frames : List Frame}
    (h : p.CompiledFrom m frames) (hm : m.Rules) (hf : m.frames = .ok frames) {f : Frame}
    (hmem : f ∈ frames) {n : Nat} (hn : n < f.conditions.length) (hanchor : n ≠ f.anchor)
    (c : Check) :
    c ∈ p.checks ∧ c.process = f.number ∧ c.condition = some (n + 1) ↔ c = f.checkFrom n := by
  rw [h.checks, List.mem_flatMap]
  constructor
  · rintro ⟨⟨g, hg, hc⟩, hnumber, hcondition⟩
    rcases Frame.mem_checks_iff.1 hc with rfl | ⟨i, -, -, rfl⟩
    · contradiction
    · obtain rfl : g = f := Model.eq_of_number_eq hm hf hg hmem hnumber
      obtain rfl : i = n := Nat.succ.inj (Option.some.inj hcondition)
      rfl
  · rintro rfl
    exact ⟨⟨f, hmem, Frame.mem_checks_iff.2 (.inr ⟨n, hn, hanchor, rfl⟩)⟩, rfl, rfl⟩

namespace Kernel

/-- Every condition of the check holds on the site to which it leads. -/
def Passes (k : Kernel) (s : KernelState) (index : Nat) (c : Check) : Prop :=
  ∀ q ∈ c.conditions, ∃ t, k.resolve index q.coord = .ok t ∧ s.species? t = some q.species

def Resolves (k : Kernel) (index : Nat) (c : Check) : Prop :=
  ∀ q ∈ c.conditions, ∃ t ∈ k.sites, k.resolve index q.coord = .ok t

variable {k : Kernel} {frames : List Frame} {s : KernelState} {f : Frame} {n index : Nat}

theorem onType_congr {a b : Coordinate} (hlayer : a.layer = b.layer) (hsite : a.site = b.site) :
    k.OnType index a ↔ k.OnType index b := by
  unfold OnType
  rw [hlayer, hsite]

theorem passes_iff_look {c : Check} :
    k.Passes s index c ↔ ∀ q ∈ c.conditions, k.look s index q.coord = .ok q.species := by
  unfold Passes look
  simp only [bind_eq_ok_iff, speciesAt_eq_ok_iff]

instance (k : Kernel) (s : KernelState) (index : Nat) (c : Check) :
    Decidable (k.Passes s index c) :=
  decidable_of_iff
    (∀ q ∈ c.conditions, (k.look s index q.coord).toOption = some q.species) <| by
      rw [passes_iff_look]
      simp only [toOption_eq_some_iff]

namespace Built

theorem resolves (hb : k.Built frames) (hi : index ∈ k.sites) {c : Check}
    (hc : ∀ q ∈ c.conditions, k.model.HasSiteType q.coord) : k.Resolves index c :=
  fun q hq => ⟨_, hb.place_mem_sites hi (hc q hq), hb.resolve_eq_ok hi (hc q hq)⟩

theorem checkFrom_hasSiteType (hb : k.Built frames) (hf : f ∈ frames) (n : Nat) :
    ∀ q ∈ (f.checkFrom n).conditions, k.model.HasSiteType q.coord :=
  List.forall_mem_map.2 fun q hq => ((hb.frameRules hf).conditions q hq).siteType

theorem anchorCheck_hasSiteType (hb : k.Built frames) (hf : f ∈ frames) :
    ∀ q ∈ f.anchorCheck.conditions, k.model.HasSiteType q.coord :=
  hb.checkFrom_hasSiteType hf f.anchor

theorem passes_iff (hb : k.Built frames) (hi : index ∈ k.sites) {c : Check}
    (hc : ∀ q ∈ c.conditions, k.model.HasSiteType q.coord) :
    k.Passes s index c ↔
      ∀ q ∈ c.conditions, s.species? (k.place index q.coord) = some q.species := by
  unfold Passes
  refine forall₂_congr fun q hq => ?_
  rw [hb.resolve_eq_ok hi (hc q hq)]
  simp only [Except.ok.injEq, exists_eq_left']

theorem passes_anchorCheck (hb : k.Built frames) (hf : f ∈ frames) (hi : index ∈ k.sites) :
    k.Passes s index f.anchorCheck ↔
      ∀ c ∈ f.conditions, s.species? (k.place index c.coord) = some c.species := by
  have hconditions : f.anchorCheck.conditions = f.conditions := hb.conditionsFrom_anchor hf
  rw [hb.passes_iff hi (hb.anchorCheck_hasSiteType hf), hconditions]

theorem passes_checkFrom (hb : k.Built frames) (hf : f ∈ frames) (hi : index ∈ k.sites) :
    k.Passes s index (f.checkFrom n) ↔
      ∀ c ∈ f.conditions,
        s.species? (k.place index ((f.coordAt n).displacement c.coord)) = some c.species := by
  rw [hb.passes_iff hi (hb.checkFrom_hasSiteType hf n)]
  exact List.forall_mem_map

/-- Looking from condition `n` and looking from the anchor are two views of the same sites. -/
theorem passes_checkFrom_iff (hb : k.Built frames) (hf : f ∈ frames) {c : Placement}
    (hc : f.conditions[n]? = some c) (hi : index ∈ k.sites) (htype : k.OnType index c.coord) :
    k.Passes s index (f.checkFrom n) ↔
      k.Passes s (k.place index (f.anchorFrom n)) f.anchorCheck := by
  rw [hb.passes_checkFrom hf hi, hb.passes_anchorCheck hf (hb.place_anchorFrom_mem_sites hf hi n)]
  refine forall₂_congr fun q hq => ?_
  rw [hb.place_displacement_condition hf hc hi htype hq]

end Built
end Kernel

open Kernel

/-- Each condition of a process but its anchor has one check, and from every site of the condition's
type, whatever the occupation, that check finds what the anchor's check finds from the site on which
the anchor then is. -/
theorem checks_of_process_agree {d : Draft} {m : Model} {p : Plan} {extents : List Nat}
    {k : Kernel} (hd : d.build = .ok m) (hp : m.compile = .ok p)
    (hk : Kernel.ofExtents m p extents = .ok k) {number : Nat} {q : Process}
    (hq : m.process? number = some q) :
    ∃ f anchor anchorCheck, Frame.ofProcess m number q = .ok f ∧ q.anchor? = some anchor ∧
      p.anchorCheck? number = some anchorCheck ∧
      ∀ n c, q.conditions[n]? = some c → n ≠ f.anchor →
        ∃ check, (∀ other, other ∈ p.checks ∧ other.process = number ∧
            other.condition = some (n + 1) ↔ other = check) ∧
          ∀ s index, index ∈ k.sites → k.OnType index c.coord →
            ∃ site, k.resolve index (f.anchorFrom n) = .ok site ∧ k.OnType site anchor.coord ∧
              k.Resolves index check ∧ k.Resolves site anchorCheck ∧
              (k.Passes s index check ↔ k.Passes s site anchorCheck) := by
  obtain ⟨rfl, rfl, frames, hb⟩ := Kernel.ofExtents_eq_ok hd hp hk
  obtain ⟨f, hf, hof⟩ := Model.exists_frame hb.framed hq
  obtain ⟨anchor, hanchor, rfl, -, -, hconditions, -⟩ := Frame.ofProcess_eq_ok_iff.1 hof
  have hsite := Frame.anchorCoord_siteType hof hanchor
  refine ⟨f, anchor, f.anchorCheck, hof, hanchor,
    hb.plan.anchorCheck?_number hb.rules hb.framed hf, ?_⟩
  intro n c hc hne
  obtain ⟨framed, hframed, -⟩ := forall₂_getElem? (Frame.framePlacements_forall₂ hconditions) hc
  obtain ⟨hlt, -⟩ := List.getElem?_eq_some_iff.1 hframed
  have htypes := Frame.coordAt_siteType hof hc
  rw [Frame.coordAt_of_getElem? hframed] at htypes
  refine ⟨f.checkFrom n, hb.plan.numbered_check_iff hb.rules hb.framed hf hlt hne, ?_⟩
  intro s index hi htype
  have htype : k.OnType index framed.coord := (onType_congr htypes.1 htypes.2).2 htype
  have hthere := hb.place_anchorFrom_mem_sites hf hi n
  refine ⟨_, hb.resolve_eq_ok hi (hb.anchorFrom_hasSiteType hf n), ?_, ?_, ?_, ?_⟩
  · exact (onType_congr hsite.1 hsite.2).1 (hb.place_anchorFrom_onType hf hi n)
  · exact hb.resolves hi (hb.checkFrom_hasSiteType hf n)
  · exact hb.resolves hthere (hb.anchorCheck_hasSiteType hf)
  · exact hb.passes_checkFrom_iff hf hframed hi htype

/-- An atom descends to the next bottom site. The shift between the layers takes this step back, so
the bottom site and the top site above it are in one cell, and the check from either sees both. -/
theorem checks_of_descent_agree :
    ∃ m p k q f check anchorCheck, Samples.twoLayerChain.build = .ok m ∧
      m.compile = .ok p ∧ Kernel.ofExtents m p [2] = .ok k ∧ m.process? 3 = some q ∧
      Frame.ofProcess m 3 q = .ok f ∧ check ∈ p.checks ∧ check.condition = some 2 ∧
      p.anchorCheck? 3 = some anchorCheck ∧ k.resolve 1 (f.anchorFrom 1) = .ok 2 ∧
      k.Passes ⟨["empty", "A", "A", "empty"], []⟩ 1 check ∧
      k.Passes ⟨["empty", "A", "A", "empty"], []⟩ 2 anchorCheck := by
  have h : (do
      let m ← Samples.twoLayerChain.build.toOption
      let p ← m.compile.toOption
      let k ← (Kernel.ofExtents m p [2]).toOption
      let q ← m.process? 3
      let f ← (Frame.ofProcess m 3 q).toOption
      let c ← q.conditions[1]?
      let check ← p.checks.find? fun check => check.process = 3 ∧ check.condition = some 2
      guard (1 ≠ f.anchor ∧ 1 ∈ k.sites ∧ k.OnType 1 c.coord ∧
        k.resolve 1 (f.anchorFrom 1) = .ok 2 ∧
        k.Passes ⟨["empty", "A", "A", "empty"], []⟩ 1 check)) = some () := by
    decide +kernel
  simp only [Option.bind_eq_bind, Option.bind_eq_some_iff, toOption_eq_some_iff,
    Option.guard_eq_some'] at h
  obtain ⟨m, hd, p, hp, k, hk, q, hq, f, hof, c, hc, check, hfind, hne, hi, htype, hthere,
    hpasses⟩ := h
  have hcheck := List.mem_of_find?_eq_some hfind
  obtain ⟨hnumber, hcondition⟩ : check.process = 3 ∧ check.condition = some 2 := by
    simpa using List.find?_some hfind
  obtain ⟨f', anchor, anchorCheck, hof', -, hanchor, hall⟩ := checks_of_process_agree hd hp hk hq
  obtain rfl := Except.ok.inj (hof.symm.trans hof')
  obtain ⟨check', hunique, hagree⟩ := hall 1 c hc hne
  obtain rfl := (hunique check).1 ⟨hcheck, hnumber, hcondition⟩
  obtain ⟨site, hsite, -, -, -, hiff⟩ := hagree ⟨["empty", "A", "A", "empty"], []⟩ 1 hi htype
  obtain rfl := Except.ok.inj (hthere.symm.trans hsite)
  exact ⟨m, p, k, q, f, check, anchorCheck, hd, hp, hk, hq, hof, hcheck, hcondition, hanchor,
    hthere, hpasses, hiff.1 hpasses⟩

end LatticeKinetics
