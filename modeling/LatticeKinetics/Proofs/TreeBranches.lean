import LatticeKinetics.Proofs.TreeShape

/-! The queries of a synthesized tree one by one, and how many there can be. Each query is put to a
group of items that ask no more than the items did at first. Its arms share out those of the group
that ask about its coordinate, so there is an arm and none of them is idle. A query uses up a
question of every item in its arms, which bounds their number and how deep they stand. -/

namespace LatticeKinetics

variable {α : Type}

structure Branch (α : Type) where
  coord : Coordinate
  arms : Arms α
  rest : Tree α

def Arms.bodies : Arms α → List (Tree α)
  | .none => []
  | .case _ body others => body :: others.bodies

mutual

def Tree.branches : Tree α → List (Branch α)
  | .done => []
  | .fire _ rest => rest.branches
  | .query coord arms rest => ⟨coord, arms, rest⟩ :: (arms.branches ++ rest.branches)

def Arms.branches : Arms α → List (Branch α)
  | .none => []
  | .case _ body others => body.branches ++ others.branches

end

mutual

theorem Tree.map_coord_branches (t : Tree α) : t.branches.map (·.coord) = t.queries := by
  cases t with
  | done => rfl
  | fire payload rest => exact rest.map_coord_branches
  | query coord arms rest =>
    rw [Tree.branches, Tree.queries, List.map_cons, List.map_append, arms.map_coord_branches,
      rest.map_coord_branches]

theorem Arms.map_coord_branches (arms : Arms α) : arms.branches.map (·.coord) = arms.queries := by
  cases arms with
  | none => rfl
  | case species body others =>
    rw [Arms.branches, Arms.queries, List.map_append, body.map_coord_branches,
      others.map_coord_branches]

end

theorem Tree.length_branches (t : Tree α) : t.branches.length = t.queryCount := by
  rw [queryCount, ← t.map_coord_branches, List.length_map]

@[simp] theorem Tree.branches_fireAll (payloads : List α) (rest : Tree α) :
    (Tree.fireAll payloads rest).branches = rest.branches := by
  induction payloads with
  | nil => rfl
  | cons p ps ih => exact ih

namespace Arms

theorem branches_ofList (arms : List (String × Tree α)) :
    (ofList arms).branches = arms.flatMap (·.2.branches) := by
  induction arms with
  | nil => rfl
  | cons arm arms ih => simp [ofList, branches, ih]

theorem bodies_ofList (arms : List (String × Tree α)) :
    (ofList arms).bodies = arms.map (·.2) := by
  induction arms with
  | nil => rfl
  | cons arm arms ih => simp [ofList, bodies, ih]

theorem depth_ofList_le {n : Nat} {arms : List (String × Tree α)}
    (h : ∀ arm ∈ arms, arm.2.depth ≤ n) : (ofList arms).depth ≤ n := by
  induction arms with
  | nil => exact Nat.zero_le n
  | cons arm arms ih =>
    exact Nat.max_le.2 ⟨h arm List.mem_cons_self, ih fun a ha => h a (List.mem_cons_of_mem _ ha)⟩

end Arms

namespace Synthesis

def branch (coord : Coordinate) (group : List (Item α)) : Branch α where
  coord
  arms := Arms.ofList ((wanted coord group).map fun species =>
    (species, Tree.synthesize (answered coord species group)))
  rest := Tree.synthesize (deferred coord group)

section Branch

variable {coord : Coordinate} {group : List (Item α)}

theorem labels_branch (coord : Coordinate) (group : List (Item α)) :
    (branch coord group).arms.labels = wanted coord group := by
  rw [branch, Arms.labels_ofList, List.map_map]
  exact List.map_id _

theorem wanted_ne_nil (h : mostCommon group = some coord) : wanted coord group ≠ [] := by
  obtain ⟨i, hi, species, rest, ht⟩ := exists_takeQuestion h
  exact List.ne_nil_of_mem (mem_wanted.2 ⟨i, hi, rest, ht⟩)

theorem answered_ne_nil {species : String} (h : species ∈ wanted coord group) :
    answered coord species group ≠ [] := by
  obtain ⟨i, hi, rest, ht⟩ := mem_wanted.1 h
  apply List.ne_nil_of_mem (a := { i with questions := rest })
  exact List.mem_filterMap.2 ⟨i, hi, by simp [ht]⟩

end Branch

end Synthesis

open Synthesis

namespace Tree

theorem branches_synthesize {items : List (Item α)} {coord : Coordinate}
    (h : mostCommon (opened items) = some coord) :
    (synthesize items).branches =
      branch coord (opened items) ::
        ((wanted coord (opened items)).flatMap fun species =>
          (synthesize (answered coord species (opened items))).branches) ++
        (synthesize (deferred coord (opened items))).branches := by
  rw [synthesize_of_some h, branches_fireAll, branches, Arms.branches_ofList, List.flatMap_map]
  rfl

/-- Every query is put to some group, whose items are some of those at first with questions of
theirs left out. -/
theorem exists_group_of_mem_branches {items : List (Item α)} {b : Branch α}
    (hb : b ∈ (synthesize items).branches) :
    ∃ group, mostCommon group = some b.coord ∧ b = branch b.coord group ∧
      ∀ j ∈ group, ∃ i ∈ items, j.questions.Sublist i.questions := by
  induction items using synthesize.induct with
  | case1 items iha ihd =>
    cases h : mostCommon (opened items) with
    | none =>
      rw [synthesize_of_none h, branches_fireAll] at hb
      contradiction
    | some coord =>
      have hopened : ∀ j ∈ opened items, j ∈ items := fun j => List.mem_of_mem_filter
      rw [branches_synthesize h] at hb
      rcases List.mem_append.1 hb with hb | hb
      · rcases List.mem_cons.1 hb with rfl | hb
        · exact ⟨opened items, h, rfl, fun j hj => ⟨j, hopened j hj, List.Sublist.refl _⟩⟩
        · obtain ⟨species, -, hb⟩ := List.mem_flatMap.1 hb
          obtain ⟨group, hcommon, hbranch, hgroup⟩ := iha coord h species hb
          refine ⟨group, hcommon, hbranch, fun j hj => ?_⟩
          obtain ⟨k, hk, hjk⟩ := hgroup j hj
          obtain ⟨i, hi, ht⟩ := exists_of_mem_answered hk
          exact ⟨i, hopened i hi, hjk.trans (takeQuestion_sublist ht)⟩
      · obtain ⟨group, hcommon, hbranch, hgroup⟩ := ihd coord h hb
        refine ⟨group, hcommon, hbranch, fun j hj => ?_⟩
        obtain ⟨i, hi, hji⟩ := hgroup j hj
        exact ⟨i, hopened i (List.mem_of_mem_filter hi), hji⟩

theorem isEmpty_synthesize {items : List (Item α)} (h : items ≠ []) :
    (synthesize items).isEmpty = false := by
  have hperm := payloads_synthesize_perm items
  cases ht : synthesize items with
  | done =>
    rw [ht, payloads, List.nil_perm, List.map_eq_nil_iff] at hperm
    contradiction
  | fire payload rest => rfl
  | query coord arms rest => rfl

theorem depth_synthesize_le {n : Nat} {items : List (Item α)}
    (hn : ∀ i ∈ items, i.questions.length ≤ n) : (synthesize items).depth ≤ n := by
  induction items using synthesize.induct generalizing n with
  | case1 items iha ihd =>
    cases h : mostCommon (opened items) with
    | none =>
      rw [synthesize_of_none h, depth_fireAll]
      exact Nat.zero_le n
    | some coord =>
      have hopened : ∀ i ∈ opened items, i.questions.length ≤ n :=
        fun i hi => hn i (List.mem_of_mem_filter hi)
      -- The arms stand one deeper, and the items in them have one question less.
      have hitem : ∀ i ∈ opened items, ∀ taken, takeQuestion coord i.questions = some taken →
          taken.2.length + 1 ≤ n := by
        intro i hi taken ht
        rw [takeQuestion_length ht]
        exact hopened i hi
      obtain ⟨i, hi, species, rest, ht⟩ := exists_takeQuestion h
      have hpos := hitem i hi _ ht
      rw [synthesize_of_some h, depth_fireAll, depth]
      apply Nat.max_le.2
      constructor
      · have harms : (branch coord (opened items)).arms.depth ≤ n - 1 := by
          apply Arms.depth_ofList_le
          intro arm harm
          obtain ⟨species, -, rfl⟩ := List.mem_map.1 harm
          apply iha coord h species
          intro j hj
          obtain ⟨i, hi, ht⟩ := exists_of_mem_answered hj
          have hj := hitem i hi _ ht
          dsimp only at hj
          omega
        unfold branch at harms
        dsimp only at harms
        omega
      · exact ihd coord h fun i hi => hopened i (List.mem_of_mem_filter hi)

end Tree

theorem Synthesis.length_questionCoords (items : List (Item α)) :
    (questionCoords items).length = (items.map (·.questions.length)).sum := by
  unfold questionCoords
  simp only [List.length_flatMap, List.length_map]

/-- A synthesized tree fires every payload in one place. It has no more queries than the items have
questions, and never more of them inside one another than some item has questions. Every query has
an arm, its arms are for different species, and none of them is idle. All this holds also of items
that ask about a coordinate twice. -/
theorem synthesized_tree_keeps_within_bounds (items : List (Item α)) :
    (Tree.synthesize items).payloads.Perm (items.map (·.payload)) ∧
      (Tree.synthesize items).fireCount = items.length ∧
      (Tree.synthesize items).queryCount ≤ (items.map (·.questions.length)).sum ∧
      (Tree.synthesize items).depth ≤ (items.map (·.questions.length)).max?.getD 0 ∧
      ∀ b ∈ (Tree.synthesize items).branches,
        b.arms.labels ≠ [] ∧ b.arms.labels.Nodup ∧
          ∀ body ∈ b.arms.bodies, body.isEmpty = false := by
  have hperm := Tree.payloads_synthesize_perm items
  refine ⟨hperm, ?_, ?_, ?_, ?_⟩
  · exact hperm.length_eq.trans (List.length_map _)
  · rw [← length_questionCoords]
    exact (Tree.queries_synthesize_subperm items).length_le
  · apply Tree.depth_synthesize_le
    intro i hi
    exact List.le_max?_getD_of_mem (List.mem_map_of_mem hi)
  · intro b hb
    obtain ⟨group, hcommon, hbranch, -⟩ := Tree.exists_group_of_mem_branches hb
    rw [hbranch, labels_branch]
    refine ⟨wanted_ne_nil hcommon, wanted_nodup b.coord group, ?_⟩
    intro body hbody
    rw [branch, Arms.bodies_ofList, List.map_map] at hbody
    obtain ⟨species, hspecies, rfl⟩ := List.mem_map.1 hbody
    exact Tree.isEmpty_synthesize (answered_ne_nil hspecies)

end LatticeKinetics
