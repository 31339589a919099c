import Mathlib.Data.Multiset.Filter
import LatticeKinetics.Proofs.QuerySelection

/-! What a synthesized tree fires. On every occupation the payloads that fire are those of the
satisfied items, each as often as it stands among them; only their order is the tree's own. -/

namespace LatticeKinetics

variable {α : Type}

def Item.Satisfied (occupant : Coordinate → String) (i : Item α) : Prop :=
  ∀ q ∈ i.questions, occupant q.coord = q.species

instance (occupant : Coordinate → String) :
    DecidablePred (Item.Satisfied occupant : Item α → Prop) :=
  fun i => inferInstanceAs (Decidable (∀ q ∈ i.questions, occupant q.coord = q.species))

namespace Synthesis

def due (occupant : Coordinate → String) (items : List (Item α)) : List α :=
  (items.filter fun i => i.Satisfied occupant).map (·.payload)

variable (occupant : Coordinate → String)

theorem due_cons (i : Item α) (items : List (Item α)) :
    due occupant (i :: items) =
      if i.Satisfied occupant then i.payload :: due occupant items else due occupant items := by
  by_cases h : i.Satisfied occupant <;> simp [due, h]

theorem mem_due {items : List (Item α)} {payload : α} :
    payload ∈ due occupant items ↔ ∃ i ∈ items, i.Satisfied occupant ∧ i.payload = payload := by
  simp [due, and_assoc]

theorem due_append (items more : List (Item α)) :
    due occupant (items ++ more) = due occupant items ++ due occupant more := by
  simp [due]

theorem due_filter_perm (p : Item α → Bool) (items : List (Item α)) :
    (due occupant (items.filter p) ++ due occupant (items.filter (!p ·))).Perm
      (due occupant items) := by
  unfold due
  rw [← List.map_append, ← List.filter_append]
  exact ((List.filter_append_perm p items).filter _).map _

theorem takeQuestion_perm {coord : Coordinate} {qs rest : List Placement} {species : String}
    (h : takeQuestion coord qs = some (species, rest)) : qs.Perm (⟨coord, species⟩ :: rest) := by
  obtain ⟨before, after, -, rfl, rfl⟩ := takeQuestion_eq_some h
  exact List.perm_middle

theorem takeQuestion_sublist {coord : Coordinate} {qs rest : List Placement} {species : String}
    (h : takeQuestion coord qs = some (species, rest)) : rest.Sublist qs := by
  obtain ⟨before, after, -, rfl, rfl⟩ := takeQuestion_eq_some h
  exact (List.sublist_cons_self _ after).append_left before

theorem satisfied_iff_of_takeQuestion {coord : Coordinate} {i : Item α} {rest : List Placement}
    {species : String} (h : takeQuestion coord i.questions = some (species, rest)) :
    i.Satisfied occupant ↔
      occupant coord = species ∧ Item.Satisfied occupant { i with questions := rest } := by
  unfold Item.Satisfied
  simp only [(takeQuestion_perm h).mem_iff, List.mem_cons, forall_eq_or_imp]

theorem due_ready (items : List (Item α)) :
    due occupant (items.filter (·.questions.isEmpty)) = ready items := by
  unfold due ready
  rw [List.filter_filter]
  congr 1
  apply List.filter_congr
  intro i _
  cases hq : i.questions with
  | nil => simp [Item.Satisfied, hq]
  | cons q qs => simp

theorem ready_append_due_opened_perm (items : List (Item α)) :
    (ready items ++ due occupant (opened items)).Perm (due occupant items) := by
  rw [← due_ready occupant]
  exact due_filter_perm occupant (·.questions.isEmpty) items

/-- Only the arm of the species that is found can fire anything. -/
theorem due_answered (coord : Coordinate) (items : List (Item α)) :
    due occupant (answered coord (occupant coord) items) =
      due occupant (items.filter fun i => (takeQuestion coord i.questions).isSome) := by
  induction items with
  | nil => rfl
  | cons i items ih =>
    unfold answered at ih ⊢
    cases ht : takeQuestion coord i.questions with
    | none => simpa [ht] using ih
    | some taken =>
      obtain ⟨species, rest⟩ := taken
      have hi := satisfied_iff_of_takeQuestion occupant ht
      by_cases hs : species = occupant coord
      · simp [ht, hs, due_cons, hi, ih]
      · simp [ht, hs, due_cons, hi, ih, Ne.symm hs]

theorem due_answered_append_due_deferred_perm (coord : Coordinate) (items : List (Item α)) :
    (due occupant (answered coord (occupant coord) items) ++
      due occupant (deferred coord items)).Perm (due occupant items) := by
  rw [due_answered]
  unfold deferred
  simpa only [Option.not_isSome] using
    due_filter_perm occupant (fun i => (takeQuestion coord i.questions).isSome) items

theorem mem_wanted {coord : Coordinate} {species : String} {items : List (Item α)} :
    species ∈ wanted coord items ↔
      ∃ i ∈ items, ∃ rest, takeQuestion coord i.questions = some (species, rest) := by
  induction items with
  | nil => simp [wanted]
  | cons i items ih =>
    unfold wanted
    cases ht : takeQuestion coord i.questions with
    | none => simp [ht, ih]
    | some taken =>
      obtain ⟨s, r⟩ := taken
      by_cases hs : species = s
      · simp [ht, hs]
      · simp [ht, hs, ih, Ne.symm hs]

theorem answered_eq_nil {coord : Coordinate} {species : String} {items : List (Item α)}
    (h : species ∉ wanted coord items) : answered coord species items = [] := by
  unfold answered
  rw [List.filterMap_eq_nil_iff]
  intro i hi
  cases ht : takeQuestion coord i.questions with
  | none => rfl
  | some taken =>
    obtain ⟨s, r⟩ := taken
    have hs : s ≠ species := by
      rintro rfl
      exact h (mem_wanted.2 ⟨i, hi, r, ht⟩)
    simp [hs]

/-- Once the ready payloads are out and nothing is left to ask, no item is left. -/
theorem opened_eq_nil {items : List (Item α)} (h : mostCommon (opened items) = none) :
    opened items = [] := by
  apply List.eq_nil_iff_forall_not_mem.2
  intro i hi
  have hq := mostCommon_eq_none_iff.1 h i hi
  simp [opened, hq] at hi

end Synthesis

open Synthesis

namespace Arms

def chosen : Arms α → String → Tree α
  | .none, _ => .done
  | .case species body others, found => if species = found then body else others.chosen found

theorem fired_eq (occupant : Coordinate → String) (arms : Arms α) (found : String) :
    arms.fired occupant found = (arms.chosen found).fired occupant := by
  fun_induction chosen arms found with
  | case1 => rfl
  | case2 body others => simp [fired]
  | case3 species body others found h ih => simp [fired, h, ih]

theorem asked_eq (occupant : Coordinate → String) (arms : Arms α) (found : String) :
    arms.asked occupant found = (arms.chosen found).asked occupant := by
  fun_induction chosen arms found with
  | case1 => rfl
  | case2 body others => simp [asked]
  | case3 species body others found h ih => simp [asked, h, ih]

theorem chosen_ofList (body : String → Tree α) (names : List String) (found : String) :
    (ofList (names.map fun name => (name, body name))).chosen found =
      if found ∈ names then body found else .done := by
  induction names with
  | nil => rfl
  | cons name names ih =>
    simp only [List.map_cons, ofList, chosen, ih]
    by_cases h : name = found
    · simp [h]
    · simp [h, Ne.symm h]

end Arms

namespace Tree

theorem synthesize_of_none {items : List (Item α)} (h : mostCommon (opened items) = none) :
    synthesize items = fireAll (ready items) .done := by
  rw [synthesize]
  split
  · rfl
  · rename_i hs
    rw [h] at hs
    contradiction

theorem synthesize_of_some {items : List (Item α)} {coord : Coordinate}
    (h : mostCommon (opened items) = some coord) :
    synthesize items = fireAll (ready items)
      (.query coord
        (Arms.ofList ((wanted coord (opened items)).map fun species =>
          (species, synthesize (answered coord species (opened items)))))
        (synthesize (deferred coord (opened items)))) := by
  rw [synthesize]
  split
  · rename_i hn
    rw [h] at hn
    contradiction
  · rename_i c hc
    obtain rfl : coord = c := Option.some.inj (h.symm.trans hc)
    rfl

@[simp] theorem synthesize_nil : synthesize ([] : List (Item α)) = .done :=
  synthesize_of_none rfl

theorem chosen_arms (coord : Coordinate) (items : List (Item α)) (found : String) :
    (Arms.ofList ((wanted coord items).map fun species =>
        (species, synthesize (answered coord species items)))).chosen found =
      synthesize (answered coord found items) := by
  rw [Arms.chosen_ofList]
  split
  · rfl
  · rename_i h
    rw [answered_eq_nil h, synthesize_nil]

theorem fired_synthesize_perm (occupant : Coordinate → String) (items : List (Item α)) :
    ((synthesize items).fired occupant).Perm (due occupant items) := by
  induction items using synthesize.induct with
  | case1 items iha ihd =>
    refine List.Perm.trans ?_ (ready_append_due_opened_perm occupant items)
    cases h : mostCommon (opened items) with
    | none =>
      rw [synthesize_of_none h, fired_fireAll, opened_eq_nil h]
      rfl
    | some coord =>
      rw [synthesize_of_some h, fired_fireAll, fired, Arms.fired_eq, chosen_arms]
      apply List.Perm.append_left
      exact ((iha coord h _).append (ihd coord h)).trans
        (due_answered_append_due_deferred_perm occupant coord (opened items))

end Tree

/-- For any items, also ones that ask twice or contradict themselves about one coordinate, and any
occupation: each satisfied item fires exactly once and no other item fires. -/
theorem synthesize_fires_satisfied_items (items : List (Item α))
    (occupant : Coordinate → String) :
    ((Tree.synthesize items).fired occupant : Multiset α) =
      ((items : Multiset (Item α)).filter (·.Satisfied occupant)).map (·.payload) := by
  rw [Multiset.filter_coe, Multiset.map_coe, Multiset.coe_eq_coe]
  exact Tree.fired_synthesize_perm occupant items

/-! Evaluating a tree asks about coordinates of its queries only. -/

mutual

theorem Tree.asked_subset_queries (occupant : Coordinate → String) (t : Tree α) :
    t.asked occupant ⊆ t.queries := by
  cases t with
  | done => simp [Tree.asked]
  | fire payload rest => exact Tree.asked_subset_queries occupant rest
  | query coord arms rest =>
    unfold Tree.asked Tree.queries
    apply List.cons_subset_cons
    exact List.append_subset.2
      ⟨List.subset_append_of_subset_left _ (Arms.asked_subset_queries occupant arms _),
        List.subset_append_of_subset_right _ (Tree.asked_subset_queries occupant rest)⟩

theorem Arms.asked_subset_queries (occupant : Coordinate → String) (arms : Arms α)
    (found : String) : arms.asked occupant found ⊆ arms.queries := by
  cases arms with
  | none => simp [Arms.asked]
  | case species body others =>
    unfold Arms.asked Arms.queries
    split
    · exact List.subset_append_of_subset_left _ (Tree.asked_subset_queries occupant body)
    · exact List.subset_append_of_subset_right _
        (Arms.asked_subset_queries occupant others found)

end

end LatticeKinetics
