import LatticeKinetics.Proofs.KernelProcess
import LatticeKinetics.Samples

/-! Whole runs of a kernel. From the empty lattice on, every permitted call succeeds and the list of
possible processes stays what it would be if it were worked out anew. -/

namespace LatticeKinetics

inductive KernelCall where
  | reset
  | update (direction : Direction) (species : String) (index : Nat)
  | touchup (index : Nat)
  | touchupAll
  | run (process index : Nat)
  /-- Change a site behind the back of the list. -/
  | overwrite (index : Nat) (species : String)
deriving DecidableEq, Repr

namespace Kernel

def perform (k : Kernel) (s : KernelState) : KernelCall → Except KernelFault KernelState
  | .reset => k.reset
  | .update direction species index => k.update direction species index s
  | .touchup index => k.touchup index s
  | .touchupAll => k.touchupAll s
  | .run process index => k.run process index s
  | .overwrite index species => setSpecies index species s

/-- The calls that a state is ready for: updates of sites that hold what they expect, touch-ups of
sites, and listed processes. -/
def Permits (k : Kernel) (s : KernelState) : KernelCall → Prop
  | .reset => True
  | .update direction species index =>
    species ∈ k.model.species ∧ species ≠ k.model.defaultSpecies ∧ index ∈ k.sites ∧
      s.species? index = some (direction.expects species k.model.defaultSpecies)
  | .touchup index => index ∈ k.sites
  | .touchupAll => True
  | .run process index => s.canDo process index = true
  | .overwrite _ _ => False

/-- The states that runs lead to, if every call is allowed in the state in which it is made. -/
inductive Reached (k : Kernel) (allowed : KernelState → KernelCall → Prop) : KernelState → Prop
  | reset {s : KernelState} (h : k.reset = .ok s) : Reached k allowed s
  | call {s s' : KernelState} {c : KernelCall} (hs : Reached k allowed s) (hc : allowed s c)
      (h : k.perform s c = .ok s') : Reached k allowed s'

/-- Working the list out anew finds a species wherever it looks. -/
def Sighted (k : Kernel) (s : KernelState) : Prop :=
  ∀ index ∈ k.sites, ∃ type, k.siteType index = .ok type ∧
    ∀ c ∈ k.checksOn type, ∀ p ∈ c.conditions, ∃ species, k.look s index p.coord = .ok species

variable {k : Kernel} {frames : List Frame} {s s' : KernelState}

theorem canDo_iff {process index : Nat} :
    s.canDo process index = true ↔ (process, index) ∈ s.listed := by
  unfold KernelState.canDo
  rw [List.contains_iff_mem]

namespace Built

theorem sighted (hb : k.Built frames) (hs : k.Full s) : k.Sighted s := by
  intro index hi
  obtain ⟨type, -, htype, -⟩ := hb.exists_siteType hi
  refine ⟨type, htype, ?_⟩
  rw [hb.checksOn_eq, List.forall_mem_map]
  intro f hf c hc
  have hf := ((mem_anchored hi htype).1 hf).1
  rw [Frame.anchorCheck, hb.conditionsFrom_anchor hf] at hc
  exact ⟨_, hb.look_eq_ok hs hi (hb.condition_hasSiteType hf hc)⟩

theorem perform_eq_ok (hb : k.Built frames) (hsep : k.Separated) (hs : k.Faithful frames s)
    {c : KernelCall} (hc : k.Permits s c) :
    ∃ s', k.perform s c = .ok s' ∧ k.Faithful frames s' := by
  cases c with
  | reset => exact hb.reset_eq_ok
  | update direction species index =>
    obtain ⟨hspecies, hne, hi, hfound⟩ := hc
    obtain ⟨s', hs', hfaithful, -⟩ := hb.update_expecting hsep hs hi direction hspecies hne hfound
    exact ⟨s', hs', hfaithful⟩
  | touchup index =>
    obtain ⟨s', hs', hrenewed⟩ := hb.touchup_eq_ok hs.full hs.once hc
    exact ⟨s', hs', hrenewed.faithful hs⟩
  | touchupAll =>
    obtain ⟨s', hs', hrenewed⟩ := hb.touchupEach_eq_ok (fun _ hi => hi) hs.full hs.once
    exact ⟨s', hs', hrenewed.faithful hs⟩
  | run process index =>
    obtain ⟨f, hf, hnumber, hpossible⟩ := (hs.listed _).1 (canDo_iff.1 hc)
    obtain ⟨s', hs', hfaithful, -⟩ := hb.run_eq_ok hsep hs hf hpossible
    obtain rfl : process = f.number := hnumber
    exact ⟨s', hs', hfaithful⟩
  | overwrite index species => exact hc.elim

theorem faithful_of_reached (hb : k.Built frames) (hsep : k.Separated)
    (h : k.Reached k.Permits s) : k.Faithful frames s := by
  induction h with
  | reset h =>
    obtain ⟨s', hs', hfaithful⟩ := hb.reset_eq_ok
    exact Except.ok.inj (hs'.symm.trans h) ▸ hfaithful
  | call _ hc h ih =>
    obtain ⟨s', hs', hfaithful⟩ := hb.perform_eq_ok hsep ih hc
    exact Except.ok.inj (hs'.symm.trans h) ▸ hfaithful

end Built

/-! No call changes the number of sites, whatever else it does. -/

theorem apply_occupation {origin : Nat} {e : Effect} (h : k.apply origin e s = .ok s') :
    s'.occupation = s.occupation := by
  unfold apply at h
  rw [bind_eq_ok_iff] at h
  obtain ⟨place, -, h⟩ := h
  cases e with
  | enable process location =>
    unfold KernelState.add at h
    obtain ⟨-, h⟩ := ite_error_eq_ok_iff.1 h
    exact Except.ok.inj h ▸ rfl
  | disable process location => exact pure_eq_ok_iff.1 h ▸ rfl

theorem applyAll_occupation {origin : Nat} {es : List Effect}
    (h : k.applyAll origin es s = .ok s') : s'.occupation = s.occupation := by
  induction es generalizing s with
  | nil => exact Except.ok.inj h ▸ rfl
  | cons e es ih =>
    rw [applyAll, bind_eq_ok_iff] at h
    obtain ⟨s₁, hs₁, h⟩ := h
    exact (ih h).trans (apply_occupation hs₁)

theorem touchup_occupation {index : Nat} (h : k.touchup index s = .ok s') :
    s'.occupation = s.occupation := by
  obtain ⟨type, t, es, -, -, -, h⟩ := touchup_eq_ok_iff.1 h
  rw [applyAll_occupation h]
  rfl

theorem touchupEach_occupation {indices : List Nat} (h : k.touchupEach indices s = .ok s') :
    s'.occupation = s.occupation := by
  induction indices generalizing s with
  | nil => exact Except.ok.inj h ▸ rfl
  | cons index indices ih =>
    rw [touchupEach, bind_eq_ok_iff] at h
    obtain ⟨s₁, hs₁, h⟩ := h
    exact (ih h).trans (touchup_occupation hs₁)

theorem update_full {direction : Direction} {species : String} {index : Nat} (hs : k.Full s)
    (h : k.update direction species index s = .ok s') : k.Full s' := by
  obtain ⟨type, u, es, -, -, -, -, h⟩ := update_eq_ok_iff.1 h
  exact (hs.withSpecies index u.after).of_occupation (applyAll_occupation h)

theorem perform_full {c : KernelCall} (hs : k.Full s) (h : k.perform s c = .ok s') :
    k.Full s' := by
  cases c with
  | reset => exact k.full_start.of_occupation (touchupEach_occupation h)
  | update direction species index => exact update_full hs h
  | touchup index => exact hs.of_occupation (touchup_occupation h)
  | touchupAll => exact hs.of_occupation (touchupEach_occupation h)
  | run process index => exact run_keeps update_full hs h
  | overwrite index species => exact (setSpecies_eq_ok_iff.1 h).2 ▸ hs.withSpecies index species

theorem Reached.full {allowed : KernelState → KernelCall → Prop} (h : k.Reached allowed s) :
    k.Full s := by
  induction h with
  | reset h => exact k.full_start.of_occupation (touchupEach_occupation h)
  | call _ _ h ih => exact perform_full ih h

end Kernel

open Kernel

/-- On two cells the two oxygen atoms of a pair have a site each. Once there is an oxygen atom on
the bridge site of the first cell, it can be swapped. -/
private theorem oxidation_on_two_cells :
    ∃ m p k s₀ s, Samples.carbonMonoxideOxidation.build = .ok m ∧ m.compile = .ok p ∧
      Kernel.ofExtents m p [1, 2] = .ok k ∧ k.reset = .ok s₀ ∧
      k.Permits s₀ (.update .put "O" 1) ∧ k.perform s₀ (.update .put "O" 1) = .ok s ∧
      k.Separated ∧ s.available = k.possible s ∧ s₀.canDo 8 1 = false ∧ s.canDo 8 1 = true := by
  have h : (do
      let m ← Samples.carbonMonoxideOxidation.build.toOption
      let p ← m.compile.toOption
      let k ← (Kernel.ofExtents m p [1, 2]).toOption
      let s₀ ← k.reset.toOption
      let s ← (k.perform s₀ (.update .put "O" 1)).toOption
      guard (("O" ∈ k.model.species ∧ "O" ≠ k.model.defaultSpecies ∧ 1 ∈ k.sites ∧
          s₀.species? 1 = some k.model.defaultSpecies) ∧
        k.Separated ∧ s.listed.Perm (k.sites.flatMap (k.possibleAt s)) ∧
        s₀.canDo 8 1 = false ∧ s.canDo 8 1 = true)) = some () := by
    decide +kernel
  simp only [Option.bind_eq_bind, Option.bind_eq_some_iff, toOption_eq_some_iff,
    Option.guard_eq_some'] at h
  obtain ⟨m, hm, p, hp, k, hk, s₀, hs₀, s, hs, hpermits, hsep, hperm, hcan⟩ := h
  exact ⟨m, p, k, s₀, s, hm, hp, hk, hs₀, hpermits, hs, hsep,
    Registration.sort_eq_sort_iff.2 hperm, hcan⟩

/-- On every lattice on which no two conditions of a process that require the same species meet, the
empty lattice can be set up, in every state that permitted calls lead to the list is what working it
out anew gives, and every further permitted call succeeds. -/
theorem available_eq_possible_in_every_run {d : Draft} {m : Model} {p : Plan} {extents : List Nat}
    {k : Kernel} (hd : d.build = .ok m) (hp : m.compile = .ok p)
    (hk : Kernel.ofExtents m p extents = .ok k) (hsep : k.Separated) :
    (∃ s, k.reset = .ok s) ∧
      ∀ s, k.Reached k.Permits s → s.available = k.possible s ∧ k.Sighted s ∧
        ∀ c, k.Permits s c → ∃ s', k.perform s c = .ok s' := by
  obtain ⟨-, -, frames, hb⟩ := Kernel.ofExtents_eq_ok hd hp hk
  obtain ⟨start, hstart, -⟩ := hb.reset_eq_ok
  refine ⟨⟨start, hstart⟩, ?_⟩
  intro s hs
  have hfaithful := hb.faithful_of_reached hsep hs
  refine ⟨(hb.faithful_iff hfaithful.full).1 hfaithful, hb.sighted hfaithful.full, ?_⟩
  intro c hc
  obtain ⟨s', hs', -⟩ := hb.perform_eq_ok hsep hfaithful hc
  exact ⟨s', hs'⟩

/-- The oxygen atom that is put on the bridge site makes its swap possible. -/
theorem available_eq_possible_on_two_cells :
    ∃ m p k s₀ s, Samples.carbonMonoxideOxidation.build = .ok m ∧ m.compile = .ok p ∧
      Kernel.ofExtents m p [1, 2] = .ok k ∧ k.Separated ∧ k.reset = .ok s₀ ∧
      k.Permits s₀ (.update .put "O" 1) ∧ k.perform s₀ (.update .put "O" 1) = .ok s ∧
      s₀.canDo 8 1 = false ∧ s.canDo 8 1 = true ∧ k.Reached k.Permits s ∧
      (s.available = k.possible s ∧ k.Sighted s ∧
        ∀ c, k.Permits s c → ∃ s', k.perform s c = .ok s') ∧
      (∃ s, k.reset = .ok s) ∧
      ∀ s, k.Reached k.Permits s → s.available = k.possible s ∧ k.Sighted s ∧
        ∀ c, k.Permits s c → ∃ s', k.perform s c = .ok s' := by
  obtain ⟨m, p, k, s₀, s, hd, hp, hk, hs₀, hpermits, hput, hsep, -, hbefore, hafter⟩ :=
    oxidation_on_two_cells
  have hruns := available_eq_possible_in_every_run hd hp hk hsep
  have hs : k.Reached k.Permits s := .call (.reset hs₀) hpermits hput
  exact ⟨m, p, k, s₀, s, hd, hp, hk, hsep, hs₀, hpermits, hput, hbefore, hafter, hs,
    hruns.2 s hs, hruns⟩

/-- In every state, however it was reached, whose list is what working it out anew gives: a listed
process runs, afterwards the site of every action holds the action's species, and every other site
holds what it held before. -/
theorem run_carries_out_actions {d : Draft} {m : Model} {p : Plan} {extents : List Nat}
    {k : Kernel} (hd : d.build = .ok m) (hp : m.compile = .ok p)
    (hk : Kernel.ofExtents m p extents = .ok k) (hsep : k.Separated) {s : KernelState}
    (hs : k.Reached (fun _ _ => True) s) (hlist : s.available = k.possible s)
    {process index : Nat} (hlisted : s.canDo process index = true) :
    ∃ q f s', m.process? process = some q ∧ Frame.ofProcess m process q = .ok f ∧
      k.run process index s = .ok s' ∧
      (∀ a ∈ f.actions, ∃ t, k.resolve index a.coord = .ok t ∧ s'.species? t = some a.species) ∧
      ∀ t, (∀ a ∈ f.actions, k.resolve index a.coord ≠ .ok t) →
        s'.species? t = s.species? t := by
  obtain ⟨rfl, -, frames, hb⟩ := Kernel.ofExtents_eq_ok hd hp hk
  have hfaithful := (hb.faithful_iff hs.full).2 hlist
  obtain ⟨f, hf, hnumber, hpossible⟩ := (hfaithful.listed _).1 (canDo_iff.1 hlisted)
  obtain rfl : process = f.number := hnumber
  obtain ⟨hlow, hget⟩ := Model.frames_getElem?_number hb.rules hb.framed hf
  obtain ⟨q, hq, hframe, -⟩ := Model.frames_getElem? hb.rules hb.framed hget
  obtain ⟨s', hs', -, hleft, hkept⟩ := hb.run_eq_ok hsep hfaithful hf hpossible
  have hresolve : ∀ a ∈ f.actions, k.resolve index a.coord = .ok (k.place index a.coord) := by
    intro a ha
    exact hb.resolve_eq_ok hpossible.hosts.1 ((hb.frameRules hf).actions a ha).siteType
  refine ⟨q, f, s', ?_, ?_, hs', ?_, ?_⟩
  · rw [Model.process?, if_neg (by omega), hq]
  · rw [Nat.sub_add_cancel hlow] at hframe
    exact hframe
  · intro a ha
    exact ⟨_, hresolve a ha, hleft a ha⟩
  · intro t ht
    apply hkept t
    intro a ha hplace
    exact ht a ha (hplace ▸ hresolve a ha)

/-- The swap takes oxygen off the bridge site and puts carbon monoxide there. -/
theorem run_carries_out_swap :
    ∃ m p k s, Samples.carbonMonoxideOxidation.build = .ok m ∧ m.compile = .ok p ∧
      Kernel.ofExtents m p [1, 2] = .ok k ∧ k.Separated ∧ k.Reached (fun _ _ => True) s ∧
      s.available = k.possible s ∧ s.canDo 8 1 = true ∧
      ∃ q f s', m.process? 8 = some q ∧ Frame.ofProcess m 8 q = .ok f ∧ k.run 8 1 s = .ok s' ∧
        (∀ a ∈ f.actions, ∃ t, k.resolve 1 a.coord = .ok t ∧ s'.species? t = some a.species) ∧
        ∀ t, (∀ a ∈ f.actions, k.resolve 1 a.coord ≠ .ok t) → s'.species? t = s.species? t := by
  obtain ⟨m, p, k, s₀, s, hd, hp, hk, hs₀, -, hput, hsep, hlist, -, hcan⟩ :=
    oxidation_on_two_cells
  have hs : k.Reached (fun _ _ => True) s := .call (.reset hs₀) trivial hput
  exact ⟨m, p, k, s, hd, hp, hk, hsep, hs, hlist, hcan,
    run_carries_out_actions hd hp hk hsep hs hlist hcan⟩

end LatticeKinetics
