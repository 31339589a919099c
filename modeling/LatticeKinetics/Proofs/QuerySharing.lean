import LatticeKinetics.Proofs.TreeBranches
import LatticeKinetics.Samples

/-! How items share queries, as long as none of them asks about a coordinate twice. Once a
coordinate is queried no item on either way from there still asks about it, so the coordinate that
most items ask about has one query. A coordinate that all items ask about may have several, but
until it is queried all items go the same way, so no evaluation meets two of them. -/

namespace LatticeKinetics

variable {α : Type}

namespace Item

def Asks (i : Item α) (coord : Coordinate) : Prop :=
  ∃ q ∈ i.questions, q.coord = coord

instance (i : Item α) (coord : Coordinate) : Decidable (i.Asks coord) :=
  inferInstanceAs (Decidable (∃ q ∈ i.questions, q.coord = coord))

def AsksOnce (i : Item α) : Prop :=
  (i.questions.map (·.coord)).Nodup

instance (i : Item α) : Decidable i.AsksOnce :=
  inferInstanceAs (Decidable (i.questions.map (·.coord)).Nodup)

theorem asks_iff {i : Item α} {coord : Coordinate} :
    i.Asks coord ↔ coord ∈ i.questions.map (·.coord) :=
  List.mem_map.symm

theorem AsksOnce.of_sublist {i j : Item α} (h : i.AsksOnce)
    (hsub : j.questions.Sublist i.questions) : j.AsksOnce :=
  (hsub.map _).nodup h

end Item

namespace Synthesis

def asking (items : List (Item α)) (coord : Coordinate) : Nat :=
  items.countP fun i => i.Asks coord

/-- As many items ask about the coordinate as about any other, and it comes up before every other
of which this is true. -/
structure Leads (items : List (Item α)) (coord : Coordinate) : Prop where
  asked : coord ∈ questionCoords items
  most : ∀ c ∈ questionCoords items, asking items c ≤ asking items coord
  first : ∀ c ∈ questionCoords items, asking items coord ≤ asking items c →
    (questionCoords items).idxOf coord ≤ (questionCoords items).idxOf c

variable {items : List (Item α)} {coord : Coordinate}

theorem count_questionCoords (h : ∀ i ∈ items, i.AsksOnce) (c : Coordinate) :
    (questionCoords items).count c = asking items c := by
  induction items with
  | nil => rfl
  | cons i items ih =>
    obtain ⟨hi, hitems⟩ := List.forall_mem_cons.1 h
    unfold asking at ih ⊢
    rw [questionCoords_cons, List.count_append, ih hitems, List.countP_cons, List.Nodup.count hi]
    simp only [Item.asks_iff, decide_eq_true_eq]
    omega

theorem mostCommon_eq_some_iff (h : ∀ i ∈ items, i.AsksOnce) :
    mostCommon items = some coord ↔ Leads items coord := by
  rw [mostCommon_eq_argmax, List.argmax_eq_some_iff]
  simp only [count_questionCoords h]
  exact ⟨fun ⟨asked, most, first⟩ => ⟨asked, most, first⟩,
    fun ⟨asked, most, first⟩ => ⟨asked, most, first⟩⟩

theorem mostCommon_opened (items : List (Item α)) :
    mostCommon (opened items) = mostCommon items := by
  rw [mostCommon_eq_argmax, mostCommon_eq_argmax, questionCoords_opened]

theorem not_mem_questionCoords_answered (h : ∀ i ∈ items, i.AsksOnce) (coord : Coordinate)
    (species : String) :
    coord ∉ questionCoords (answered coord species items) := by
  intro hmem
  obtain ⟨j, hj, q, hq, rfl⟩ := mem_questionCoords.1 hmem
  obtain ⟨i, hi, ht⟩ := exists_of_mem_answered hj
  have honce : ((⟨q.coord, species⟩ :: j.questions).map (·.coord)).Nodup :=
    ((takeQuestion_perm ht).map _).nodup_iff.1 (h i hi)
  exact (List.nodup_cons.1 honce).1 (List.mem_map_of_mem (f := (·.coord)) hq)

theorem not_mem_questionCoords_deferred (coord : Coordinate) (items : List (Item α)) :
    coord ∉ questionCoords (deferred coord items) := by
  intro hmem
  obtain ⟨i, hi, q, hq, hcoord⟩ := mem_questionCoords.1 hmem
  have hnone := Option.isNone_iff_eq_none.1 (List.mem_filter.1 hi).2
  exact takeQuestion_eq_none_iff.1 hnone q hq hcoord

theorem asksOnce_answered (h : ∀ i ∈ items, i.AsksOnce) (species : String) :
    ∀ j ∈ answered coord species items, j.AsksOnce := by
  intro j hj
  obtain ⟨i, hi, ht⟩ := exists_of_mem_answered hj
  exact (h i hi).of_sublist (takeQuestion_sublist ht)

theorem asks_answered {c : Coordinate} (hne : c ≠ coord) (h : ∀ i ∈ items, i.Asks c)
    (species : String) : ∀ j ∈ answered coord species items, j.Asks c := by
  intro j hj
  obtain ⟨i, hi, ht⟩ := exists_of_mem_answered hj
  obtain ⟨q, hq, rfl⟩ := h i hi
  rcases List.mem_cons.1 ((takeQuestion_perm ht).mem_iff.1 hq) with rfl | hq
  · exact absurd rfl hne
  · exact ⟨q, hq, rfl⟩

/-- When all items ask about one coordinate, they all ask about the one that is queried first. -/
theorem deferred_eq_nil {c : Coordinate} (honce : ∀ i ∈ items, i.AsksOnce)
    (hall : ∀ i ∈ items, i.Asks c) (h : mostCommon items = some coord) :
    deferred coord items = [] := by
  have hlead := (mostCommon_eq_some_iff honce).1 h
  obtain ⟨i, hi, -⟩ := mem_questionCoords.1 hlead.asked
  obtain ⟨q, hq, hcoord⟩ := hall i hi
  have hmost := hlead.most c (mem_questionCoords.2 ⟨i, hi, q, hq, hcoord⟩)
  have hc : asking items c = items.length :=
    List.countP_eq_length.2 fun i hi => decide_eq_true (hall i hi)
  have hasking : asking items coord = items.length :=
    Nat.le_antisymm List.countP_le_length (hc ▸ hmost)
  apply List.filter_eq_nil_iff.2
  intro i hi hnone
  obtain ⟨q, hq, hcoord⟩ := of_decide_eq_true (List.countP_eq_length.1 hasking i hi)
  exact takeQuestion_eq_none_iff.1 (Option.isNone_iff_eq_none.1 hnone) q hq hcoord

theorem not_mem_queries_branch (coord : Coordinate) (h : ∀ i ∈ items, i.AsksOnce) :
    coord ∉ (branch coord items).arms.queries ∧ coord ∉ (branch coord items).rest.queries := by
  constructor
  · rw [branch, Arms.queries_ofList, List.flatMap_map]
    intro hmem
    obtain ⟨species, -, hmem⟩ := List.mem_flatMap.1 hmem
    exact not_mem_questionCoords_answered h coord species (Tree.queries_synthesize_subset _ hmem)
  · exact fun hmem =>
      not_mem_questionCoords_deferred coord items (Tree.queries_synthesize_subset _ hmem)

end Synthesis

open Synthesis

namespace Tree

theorem count_queries_of_mostCommon {items : List (Item α)} {coord : Coordinate}
    (honce : ∀ i ∈ items, i.AsksOnce) (h : mostCommon (opened items) = some coord) :
    (synthesize items).queries.count coord = 1 := by
  have hopened : ∀ i ∈ opened items, i.AsksOnce :=
    fun i hi => honce i (List.mem_of_mem_filter hi)
  obtain ⟨harms, hrest⟩ := not_mem_queries_branch coord hopened
  unfold branch at harms hrest
  rw [synthesize_of_some h, queries_fireAll, queries, List.count_cons_self, List.count_append,
    List.count_eq_zero_of_not_mem harms, List.count_eq_zero_of_not_mem hrest]

theorem asked_synthesize_of_some (occupant : Coordinate → String) {items : List (Item α)}
    {coord : Coordinate} (h : mostCommon (opened items) = some coord) :
    (synthesize items).asked occupant =
      coord :: ((synthesize (answered coord (occupant coord) (opened items))).asked occupant ++
        (synthesize (deferred coord (opened items))).asked occupant) := by
  rw [synthesize_of_some h, asked_fireAll, asked, Arms.asked_eq, chosen_arms]

theorem not_mem_asked_synthesize (occupant : Coordinate → String) {items : List (Item α)}
    {coord : Coordinate} (h : coord ∉ questionCoords items) :
    coord ∉ (synthesize items).asked occupant :=
  fun hmem => h (queries_synthesize_subset items (asked_subset_queries occupant _ hmem))

theorem count_asked_of_mostCommon (occupant : Coordinate → String) {items : List (Item α)}
    {coord : Coordinate} (honce : ∀ i ∈ opened items, i.AsksOnce)
    (h : mostCommon (opened items) = some coord) :
    ((synthesize items).asked occupant).count coord = 1 := by
  have harms := not_mem_asked_synthesize occupant
    (not_mem_questionCoords_answered honce coord (occupant coord))
  have hrest := not_mem_asked_synthesize occupant
    (not_mem_questionCoords_deferred coord (opened items))
  rw [asked_synthesize_of_some occupant h, List.count_cons_self, List.count_append,
    List.count_eq_zero_of_not_mem harms, List.count_eq_zero_of_not_mem hrest]

/-- When all items ask about some coordinate, they go into the arms of the first query together. -/
theorem asked_synthesize_of_common (occupant : Coordinate → String) {items : List (Item α)}
    {first coord : Coordinate} (honce : ∀ i ∈ opened items, i.AsksOnce)
    (hall : ∀ i ∈ opened items, i.Asks coord) (h : mostCommon (opened items) = some first) :
    (synthesize items).asked occupant =
      first :: (synthesize (answered first (occupant first) (opened items))).asked occupant := by
  rw [asked_synthesize_of_some occupant h, deferred_eq_nil honce hall h, synthesize_nil, asked,
    List.append_nil]

end Tree

/-- No query below or behind a query is about its coordinate again, and the coordinate that most
items ask about has one query in the whole tree. -/
theorem queried_coordinate_is_never_needed_again (items : List (Item α))
    (honce : ∀ i ∈ items, i.AsksOnce) :
    (∀ b ∈ (Tree.synthesize items).branches,
        b.coord ∉ b.arms.queries ∧ b.coord ∉ b.rest.queries) ∧
      ((∃ i ∈ items, i.questions ≠ []) → ∃ coord, (∀ c, Leads items c ↔ c = coord) ∧
        (Tree.synthesize items).queries.count coord = 1) := by
  constructor
  · intro b hb
    obtain ⟨group, -, hbranch, hgroup⟩ := Tree.exists_group_of_mem_branches hb
    have hgroupOnce : ∀ j ∈ group, j.AsksOnce := by
      intro j hj
      obtain ⟨i, hi, hsub⟩ := hgroup j hj
      exact (honce i hi).of_sublist hsub
    have hqueries := not_mem_queries_branch b.coord hgroupOnce
    rwa [← hbranch] at hqueries
  · rintro ⟨i, hi, hquestions⟩
    cases h : mostCommon items with
    | none => exact absurd (mostCommon_eq_none_iff.1 h i hi) hquestions
    | some coord =>
      refine ⟨coord, fun c => ?_, ?_⟩
      · rw [← mostCommon_eq_some_iff honce, h, Option.some.injEq, eq_comm]
      · exact Tree.count_queries_of_mostCommon honce ((mostCommon_opened items).trans h)

def Synthesis.crossedItems : List (Item Nat) :=
  [⟨[⟨Samples.plain [1], "A"⟩, ⟨Samples.plain [2], "A"⟩], 1⟩,
    ⟨[⟨Samples.plain [2], "B"⟩], 2⟩,
    ⟨[⟨Samples.plain [3], "A"⟩, ⟨Samples.plain [1], "B"⟩], 3⟩]

/-- Of two coordinates in a tie the one that comes up first has one query, the other has two. -/
theorem crossed_items_query_leader_once :
    (∀ i ∈ crossedItems, i.AsksOnce) ∧ (∃ i ∈ crossedItems, i.questions ≠ []) ∧
      (Tree.synthesize crossedItems).queries =
        [Samples.plain [1], Samples.plain [2], Samples.plain [3], Samples.plain [2]] ∧
      (∀ b ∈ (Tree.synthesize crossedItems).branches,
        b.coord ∉ b.arms.queries ∧ b.coord ∉ b.rest.queries) ∧
      ∃ coord, (∀ c, Leads crossedItems c ↔ c = coord) ∧
        (Tree.synthesize crossedItems).queries.count coord = 1 := by
  have honce : ∀ i ∈ crossedItems, i.AsksOnce := by decide
  have hasks : ∃ i ∈ crossedItems, i.questions ≠ [] := by decide
  obtain ⟨hbranches, hleader⟩ := queried_coordinate_is_never_needed_again crossedItems honce
  exact ⟨honce, hasks, by decide +kernel, hbranches, hleader hasks⟩

/-- If all items that have questions ask about a coordinate, it is asked about once at most,
whatever sits where and however many queries are about it. -/
theorem common_coordinate_is_asked_at_most_once (items : List (Item α)) (coord : Coordinate)
    (honce : ∀ i ∈ items, i.AsksOnce) (hall : ∀ i ∈ items, i.questions ≠ [] → i.Asks coord)
    (occupant : Coordinate → String) :
    ((Tree.synthesize items).asked occupant).count coord ≤ 1 := by
  induction items using Tree.synthesize.induct with
  | case1 items iha ihd =>
    cases h : mostCommon (opened items) with
    | none => simp [Tree.synthesize_of_none h, Tree.asked]
    | some first =>
      have hopenedOnce : ∀ i ∈ opened items, i.AsksOnce :=
        fun i hi => honce i (List.mem_of_mem_filter hi)
      by_cases hfirst : first = coord
      · subst hfirst
        exact Nat.le_of_eq (Tree.count_asked_of_mostCommon occupant hopenedOnce h)
      · -- Whatever is found at the other coordinate, the items of its arm ask as all did before.
        have hopened : ∀ i ∈ opened items, i.Asks coord := by
          intro i hi
          obtain ⟨hi, hquestions⟩ := List.mem_filter.1 hi
          exact hall i hi (by simpa using hquestions)
        rw [Tree.asked_synthesize_of_common occupant hopenedOnce hopened h,
          List.count_cons_of_ne hfirst]
        apply iha first h
        · exact asksOnce_answered hopenedOnce _
        · exact fun j hj _ => asks_answered (Ne.symm hfirst) hopened _ j hj

/-- Both items ask about the nearer neighbour first, so both of its arms query the farther one. -/
def Synthesis.tiedItems : List (Item Nat) :=
  [⟨[⟨Samples.plain [1], "A"⟩, ⟨Samples.plain [2], "A"⟩], 1⟩,
    ⟨[⟨Samples.plain [1], "B"⟩, ⟨Samples.plain [2], "B"⟩], 2⟩, ⟨[], 3⟩]

theorem tied_coordinate_is_asked_at_most_once :
    (∀ i ∈ tiedItems, i.AsksOnce) ∧
      (∀ i ∈ tiedItems, i.questions ≠ [] → i.Asks (Samples.plain [2])) ∧
      (Tree.synthesize tiedItems).queries.count (Samples.plain [2]) = 2 ∧
      ∀ occupant, ((Tree.synthesize tiedItems).asked occupant).count (Samples.plain [2]) ≤ 1 := by
  have honce : ∀ i ∈ tiedItems, i.AsksOnce := by decide
  have hall : ∀ i ∈ tiedItems, i.questions ≠ [] → i.Asks (Samples.plain [2]) := by decide
  refine ⟨honce, hall, by decide +kernel, ?_⟩
  exact common_coordinate_is_asked_at_most_once tiedItems (Samples.plain [2]) honce hall

end LatticeKinetics
