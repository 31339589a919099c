import LatticeKinetics.Proofs.KernelPlaces
import LatticeKinetics.Proofs.TreeShape

/-! What a kernel reads from a state, and how effects change the list of a state. The effects of a
tree may come in any order, so what they do is said for the list as a set without repetitions. -/

namespace LatticeKinetics

namespace Registration

theorem before_iff {a b : Registration} :
    a.before b = true ↔ a.1 < b.1 ∨ a.1 = b.1 ∧ a.2 ≤ b.2 := by
  simp [before]

theorem sort_pairwise (rs : List Registration) :
    (sort rs).Pairwise fun a b => a.before b = true := by
  apply List.pairwise_mergeSort
  · intro a b c hab hbc
    rw [before_iff] at *
    omega
  · intro a b
    rw [Bool.or_eq_true, before_iff, before_iff]
    omega

theorem sort_eq_sort_iff {rs qs : List Registration} : sort rs = sort qs ↔ rs.Perm qs := by
  have hrs : (sort rs).Perm rs := List.mergeSort_perm rs before
  have hqs : (sort qs).Perm qs := List.mergeSort_perm qs before
  constructor
  · intro h
    exact (hrs.symm.trans (List.Perm.of_eq h)).trans hqs
  · intro h
    refine List.Perm.eq_of_pairwise ?_ (sort_pairwise rs) (sort_pairwise qs)
      ((hrs.trans h).trans hqs.symm)
    intro a b _ _ hab hba
    rw [before_iff] at hab hba
    apply Prod.ext <;> omega

end Registration

namespace KernelState

def withSpecies (s : KernelState) (index : Nat) (species : String) : KernelState :=
  { s with occupation := s.occupation.set (index - 1) species }

def without (s : KernelState) (processes : List Nat) (index : Nat) : KernelState :=
  { s with listed := s.listed.filter fun r => r ∉ processes.map (·, index) }

theorem foldl_remove (processes : List Nat) (index : Nat) (s : KernelState) :
    processes.foldl (fun s process => s.remove (process, index)) s = s.without processes index := by
  induction processes generalizing s with
  | nil => simp [without]
  | cons process processes ih =>
    rw [List.foldl_cons, ih]
    unfold without remove
    simp only [List.filter_filter, List.map_cons, List.mem_cons, not_or, Bool.decide_and,
      Bool.and_comm]

theorem exists_species?_iff {s : KernelState} {index : Nat} :
    (∃ species, s.species? index = some species) ↔ 1 ≤ index ∧ index ≤ s.occupation.length := by
  unfold species?
  by_cases h : index = 0
  · simp [h]
  · rw [if_neg h, ← Option.isSome_iff_exists, isSome_getElem?]
    omega

theorem species?_withSpecies {s : KernelState} {index : Nat} {found : String}
    (h : s.species? index = some found) (species : String) (other : Nat) :
    (s.withSpecies index species).species? other =
      if other = index then some species else s.species? other := by
  obtain ⟨hlow, hhigh⟩ := exists_species?_iff.1 ⟨found, h⟩
  unfold species? withSpecies
  by_cases heq : other = index
  · have hlt : index - 1 < s.occupation.length := by omega
    rw [if_neg (by omega), if_pos heq, heq, List.getElem?_set_self hlt]
  · rw [if_neg heq]
    split
    · rfl
    · rw [List.getElem?_set_ne (by omega)]

end KernelState

namespace Kernel

/-- The state has a species for every site of the lattice. -/
def Full (k : Kernel) (s : KernelState) : Prop :=
  s.occupation.length = k.mapping.volume

variable {k : Kernel} {frames : List Frame} {s : KernelState}

theorem Full.exists_species? (h : k.Full s) {index : Nat} :
    (∃ species, s.species? index = some species) ↔ index ∈ k.sites := by
  rw [KernelState.exists_species?_iff, mem_sites, h]

theorem Full.of_occupation {s' : KernelState} (hs : k.Full s)
    (h : s'.occupation = s.occupation) : k.Full s' := by
  unfold Full
  rw [h]
  exact hs

theorem Full.withSpecies (h : k.Full s) (index : Nat) (species : String) :
    k.Full (s.withSpecies index species) := by
  unfold Full KernelState.withSpecies
  rw [List.length_set]
  exact h

theorem speciesAt_eq_ok_iff {index : Nat} {species : String} :
    speciesAt s index = .ok species ↔ s.species? index = some species := by
  unfold speciesAt
  cases s.species? index <;> simp

theorem setSpecies_eq_ok_iff {s' : KernelState} {index : Nat} {species : String} :
    setSpecies index species s = .ok s' ↔
      (∃ found, s.species? index = some found) ∧ s.withSpecies index species = s' := by
  unfold setSpecies
  simp only [bind_eq_ok_iff, speciesAt_eq_ok_iff, pure_eq_ok_iff, exists_and_right]
  rfl

namespace Built

theorem look_eq_ok (hb : k.Built frames) (hs : k.Full s) {origin : Nat} {coord : Coordinate}
    (ho : origin ∈ k.sites) (hc : k.model.HasSiteType coord) :
    k.look s origin coord = .ok (k.occupant s origin coord) := by
  obtain ⟨species, hspecies⟩ := hs.exists_species?.2 (hb.place_mem_sites ho hc)
  have hlook : k.look s origin coord = .ok species := by
    unfold look
    rw [hb.resolve_eq_ok ho hc]
    exact speciesAt_eq_ok_iff.2 hspecies
  unfold occupant
  rw [hlook]
  rfl

theorem species?_place (hb : k.Built frames) (hs : k.Full s) {origin : Nat} {coord : Coordinate}
    (ho : origin ∈ k.sites) (hc : k.model.HasSiteType coord) :
    s.species? (k.place origin coord) = some (k.occupant s origin coord) := by
  have hlook := hb.look_eq_ok hs ho hc
  unfold look at hlook
  rw [hb.resolve_eq_ok ho hc] at hlook
  exact speciesAt_eq_ok_iff.1 hlook

theorem occupant_eq_of_species?_eq (hb : k.Built frames) {s' : KernelState} (hs : k.Full s)
    (hs' : k.Full s') {origin origin' : Nat} {coord coord' : Coordinate} (ho : origin ∈ k.sites)
    (ho' : origin' ∈ k.sites) (hc : k.model.HasSiteType coord)
    (hc' : k.model.HasSiteType coord')
    (h : s.species? (k.place origin coord) = s'.species? (k.place origin' coord')) :
    k.occupant s origin coord = k.occupant s' origin' coord' := by
  rw [hb.species?_place hs ho hc, hb.species?_place hs' ho' hc'] at h
  exact Option.some.inj h

end Built

/-- A synthesized tree fires what its items say, if they ask about declared site types only. -/
theorem Built.effectsOf_synthesize (hb : k.Built frames) (hs : k.Full s) {origin : Nat}
    (ho : origin ∈ k.sites) {items : List (Item Effect)}
    (hitems : ∀ i ∈ items, ∀ q ∈ i.questions, k.model.HasSiteType q.coord) :
    ∃ es, k.effectsOf s origin (.synthesize items) = .ok es ∧
      es.Perm (Synthesis.due (k.occupant s origin) items) := by
  have hlook : ∀ c ∈ (Tree.synthesize items).asked (k.occupant s origin),
      ∃ species, k.look s origin c = .ok species := by
    intro c hc
    have hquery := Tree.queries_synthesize_subset items (Tree.asked_subset_queries _ _ hc)
    obtain ⟨i, hi, q, hq, rfl⟩ := Synthesis.mem_questionCoords.1 hquery
    exact ⟨_, hb.look_eq_ok hs ho (hitems i hi q hq)⟩
  obtain ⟨found, hfound⟩ :=
    exists_traversal_eq_ok _ (·.mapM (k.look s origin)) rfl (fun _ _ => List.mapM_cons) hlook
  refine ⟨(Tree.synthesize items).fired (k.occupant s origin), ?_,
    Tree.fired_synthesize_perm _ items⟩
  unfold effectsOf
  rw [bind_eq_ok_iff]
  exact ⟨found, hfound, rfl⟩

def registration (k : Kernel) (origin : Nat) (e : Effect) : Registration :=
  (e.process, k.place origin e.location)

def enabledBy (k : Kernel) (origin : Nat) (es : List Effect) : List Registration :=
  (es.filter (·.isEnable)).map (k.registration origin)

def disabledBy (k : Kernel) (origin : Nat) (es : List Effect) : List Registration :=
  (es.filter (!·.isEnable)).map (k.registration origin)

theorem enabledBy_cons_enable (origin process : Nat) (location : Coordinate) (es : List Effect) :
    k.enabledBy origin (.enable process location :: es) =
      (process, k.place origin location) :: k.enabledBy origin es := rfl

theorem enabledBy_cons_disable (origin process : Nat) (location : Coordinate)
    (es : List Effect) :
    k.enabledBy origin (.disable process location :: es) = k.enabledBy origin es := rfl

theorem disabledBy_cons_enable (origin process : Nat) (location : Coordinate)
    (es : List Effect) :
    k.disabledBy origin (.enable process location :: es) = k.disabledBy origin es := rfl

theorem disabledBy_cons_disable (origin process : Nat) (location : Coordinate)
    (es : List Effect) :
    k.disabledBy origin (.disable process location :: es) =
      (process, k.place origin location) :: k.disabledBy origin es := rfl

theorem enabledBy_append (origin : Nat) (es fs : List Effect) :
    k.enabledBy origin (es ++ fs) = k.enabledBy origin es ++ k.enabledBy origin fs := by
  simp [enabledBy]

theorem disabledBy_append (origin : Nat) (es fs : List Effect) :
    k.disabledBy origin (es ++ fs) = k.disabledBy origin es ++ k.disabledBy origin fs := by
  simp [disabledBy]

section Map

variable {α : Type} (origin : Nat) (as : List α) (process : α → Nat) (location : α → Coordinate)

theorem enabledBy_map_enable :
    k.enabledBy origin (as.map fun a => .enable (process a) (location a)) =
      as.map fun a => (process a, k.place origin (location a)) := by
  induction as with
  | nil => rfl
  | cons a as ih => rw [List.map_cons, enabledBy_cons_enable, ih, List.map_cons]

theorem enabledBy_map_disable :
    k.enabledBy origin (as.map fun a => .disable (process a) (location a)) = [] := by
  induction as with
  | nil => rfl
  | cons a as ih => rw [List.map_cons, enabledBy_cons_disable, ih]

theorem disabledBy_map_enable :
    k.disabledBy origin (as.map fun a => .enable (process a) (location a)) = [] := by
  induction as with
  | nil => rfl
  | cons a as ih => rw [List.map_cons, disabledBy_cons_enable, ih]

theorem disabledBy_map_disable :
    k.disabledBy origin (as.map fun a => .disable (process a) (location a)) =
      as.map fun a => (process a, k.place origin (location a)) := by
  induction as with
  | nil => rfl
  | cons a as ih => rw [List.map_cons, disabledBy_cons_disable, ih, List.map_cons]

end Map

theorem enabledBy_perm {origin : Nat} {es fs : List Effect} (h : es.Perm fs) :
    (k.enabledBy origin es).Perm (k.enabledBy origin fs) :=
  (h.filter _).map _

theorem disabledBy_perm {origin : Nat} {es fs : List Effect} (h : es.Perm fs) :
    (k.disabledBy origin es).Perm (k.disabledBy origin fs) :=
  (h.filter _).map _

/-- Effects that enable nothing twice, nothing that is listed and nothing that they disable: all of
them can be applied, and their order makes no difference to what is listed. -/
theorem applyAll_eq_ok {origin : Nat} {es : List Effect}
    (hresolve : ∀ e ∈ es, k.resolve origin e.location = .ok (k.place origin e.location))
    (hlisted : s.listed.Nodup) (honce : (k.enabledBy origin es).Nodup)
    (hnew : ∀ r ∈ k.enabledBy origin es, r ∉ s.listed)
    (hapart : ∀ r ∈ k.enabledBy origin es, r ∉ k.disabledBy origin es) :
    ∃ s', k.applyAll origin es s = .ok s' ∧ s'.occupation = s.occupation ∧ s'.listed.Nodup ∧
      ∀ r, r ∈ s'.listed ↔
        r ∈ k.enabledBy origin es ∨ r ∈ s.listed ∧ r ∉ k.disabledBy origin es := by
  induction es generalizing s with
  | nil => exact ⟨s, rfl, rfl, hlisted, by simp [enabledBy, disabledBy]⟩
  | cons e es ih =>
    have hhead := hresolve e (by simp)
    have htail : ∀ e' ∈ es, k.resolve origin e'.location = .ok (k.place origin e'.location) :=
      fun e' he' => hresolve e' (List.mem_cons_of_mem _ he')
    cases e with
    | enable process location =>
      rw [enabledBy_cons_enable] at honce hnew hapart
      rw [disabledBy_cons_enable] at hapart
      obtain ⟨hother, honce⟩ := List.nodup_cons.1 honce
      obtain ⟨hfresh, hnew⟩ := List.forall_mem_cons.1 hnew
      obtain ⟨hkept, hapart⟩ := List.forall_mem_cons.1 hapart
      have hadd : k.apply origin (.enable process location) s =
          .ok { s with listed := s.listed ++ [(process, k.place origin location)] } := by
        unfold apply
        rw [hhead]
        exact if_neg (mt List.contains_iff_mem.1 hfresh)
      have hlisted' : (s.listed ++ [(process, k.place origin location)]).Nodup :=
        hlisted.append (List.nodup_singleton _) (by simpa using hfresh)
      have hnew' : ∀ r ∈ k.enabledBy origin es,
          r ∉ s.listed ++ [(process, k.place origin location)] := by
        intro r hr hmem
        rcases List.mem_append.1 hmem with hmem | hmem
        · exact hnew r hr hmem
        · exact hother (List.mem_singleton.1 hmem ▸ hr)
      obtain ⟨s', hs', hocc, hnodup, hmem⟩ :=
        ih (s := { s with listed := s.listed ++ [(process, k.place origin location)] }) htail
          hlisted' honce hnew' hapart
      refine ⟨s', ?_, hocc, hnodup, ?_⟩
      · rw [applyAll, hadd]
        exact hs'
      · intro r
        rw [hmem, enabledBy_cons_enable, disabledBy_cons_enable, List.mem_cons,
          List.mem_append, List.mem_singleton]
        grind
    | disable process location =>
      rw [enabledBy_cons_disable] at honce hnew hapart
      rw [disabledBy_cons_disable] at hapart
      have hremove : k.apply origin (.disable process location) s =
          .ok (s.remove (process, k.place origin location)) := by
        unfold apply
        rw [hhead]
        rfl
      obtain ⟨s', hs', hocc, hnodup, hmem⟩ :=
        ih (s := s.remove (process, k.place origin location)) htail (hlisted.filter _) honce
          (fun r hr hmem => hnew r hr (List.mem_of_mem_filter hmem))
          (fun r hr hmem => hapart r hr (List.mem_cons_of_mem _ hmem))
      refine ⟨s', ?_, hocc, hnodup, ?_⟩
      · rw [applyAll, hremove]
        exact hs'
      · intro r
        rw [hmem, enabledBy_cons_disable, disabledBy_cons_disable, List.mem_cons,
          KernelState.remove, List.mem_filter, decide_eq_true_iff]
        grind

end Kernel
end LatticeKinetics
