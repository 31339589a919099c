import LatticeKinetics.Proofs.TreeSynthesis

/-! The shape of a synthesized tree. It holds the payload of every item once, wherever it stands,
and queries a coordinate no more often than the items ask about it. The arms of a query are for
different species. -/

namespace LatticeKinetics

variable {α : Type}

private theorem subperm_flatMap {β γ : Type} {f g : β → List γ} (names : List β)
    (h : ∀ name, (f name).Subperm (g name)) : (names.flatMap f).Subperm (names.flatMap g) := by
  induction names with
  | nil => exact List.nil_subperm
  | cons name names ih => exact (h name).append ih

theorem flatMap_filter_perm {β : Type} [DecidableEq β] (key : α → β) {names : List β}
    (hnames : names.Nodup) {as : List α} (hcover : ∀ a ∈ as, key a ∈ names) :
    (names.flatMap fun name => as.filter (key · = name)).Perm as := by
  induction names generalizing as with
  | nil =>
    obtain rfl := List.eq_nil_iff_forall_not_mem.2 fun a ha => List.not_mem_nil (hcover a ha)
    rfl
  | cons name names ih =>
    rw [List.nodup_cons] at hnames
    rw [List.flatMap_cons]
    refine List.Perm.trans (List.Perm.append_left _ ?_) (List.filter_append_perm (key · = name) as)
    -- The groups of the other names lose nothing with the group of this one.
    have hgroups : ∀ other ∈ names,
        as.filter (key · = other) =
          (as.filter fun a => !decide (key a = name)).filter (key · = other) := by
      intro other hother
      have hne : other ≠ name := fun heq => hnames.1 (heq ▸ hother)
      rw [List.filter_filter]
      apply List.filter_congr
      intro a _
      by_cases ha : key a = other <;> simp [ha, hne]
    rw [List.flatMap_congr hgroups]
    apply ih hnames.2
    intro a ha
    obtain ⟨ha, hne⟩ := List.mem_filter.1 ha
    exact (List.mem_cons.1 (hcover a ha)).resolve_left (by simpa using hne)

def Arms.labels : Arms α → List String
  | .none => []
  | .case species _ others => species :: others.labels

mutual

def Tree.Apart : Tree α → Prop
  | .done => True
  | .fire _ rest => rest.Apart
  | .query _ arms rest => arms.labels.Nodup ∧ arms.Apart ∧ rest.Apart

def Arms.Apart : Arms α → Prop
  | .none => True
  | .case _ body others => body.Apart ∧ others.Apart

end

mutual

def Tree.caseSpecies : Tree α → List String
  | .done => []
  | .fire _ rest => rest.caseSpecies
  | .query _ arms rest => arms.caseSpecies ++ rest.caseSpecies

def Arms.caseSpecies : Arms α → List String
  | .none => []
  | .case species body others => species :: (body.caseSpecies ++ others.caseSpecies)

end

namespace Arms

theorem payloads_ofList (arms : List (String × Tree α)) :
    (ofList arms).payloads = arms.flatMap (·.2.payloads) := by
  induction arms with
  | nil => rfl
  | cons arm arms ih => simp [ofList, payloads, ih]

theorem queries_ofList (arms : List (String × Tree α)) :
    (ofList arms).queries = arms.flatMap (·.2.queries) := by
  induction arms with
  | nil => rfl
  | cons arm arms ih => simp [ofList, queries, ih]

theorem labels_ofList (arms : List (String × Tree α)) :
    (ofList arms).labels = arms.map (·.1) := by
  induction arms with
  | nil => rfl
  | cons arm arms ih => simp [ofList, labels, ih]

theorem mem_caseSpecies_ofList {species : String} {arms : List (String × Tree α)} :
    species ∈ (ofList arms).caseSpecies ↔
      ∃ arm ∈ arms, species = arm.1 ∨ species ∈ arm.2.caseSpecies := by
  induction arms with
  | nil => simp [ofList, caseSpecies]
  | cons arm arms ih => simp [ofList, caseSpecies, ih, or_assoc]

theorem apart_ofList {arms : List (String × Tree α)} (h : ∀ arm ∈ arms, arm.2.Apart) :
    (ofList arms).Apart := by
  induction arms with
  | nil => exact trivial
  | cons arm arms ih =>
    exact ⟨h arm List.mem_cons_self, ih fun a ha => h a (List.mem_cons_of_mem _ ha)⟩

end Arms

@[simp] theorem Tree.apart_fireAll (payloads : List α) (rest : Tree α) :
    (Tree.fireAll payloads rest).Apart ↔ rest.Apart := by
  induction payloads with
  | nil => rfl
  | cons p ps ih => exact ih

@[simp] theorem Tree.caseSpecies_fireAll (payloads : List α) (rest : Tree α) :
    (Tree.fireAll payloads rest).caseSpecies = rest.caseSpecies := by
  induction payloads with
  | nil => rfl
  | cons p ps ih => exact ih

namespace Synthesis

theorem wanted_nodup (coord : Coordinate) (items : List (Item α)) :
    (wanted coord items).Nodup := by
  induction items with
  | nil => exact List.nodup_nil
  | cons i items ih =>
    unfold wanted
    split
    · exact ih
    · apply List.nodup_cons.2
      exact ⟨by simp, ih.filter _⟩

/-- The items that ask about the coordinate, each without that question, and with the species that
it wants there. -/
def wishes (coord : Coordinate) (items : List (Item α)) : List (String × Item α) :=
  items.filterMap fun i =>
    (takeQuestion coord i.questions).map fun taken => (taken.1, { i with questions := taken.2 })

section Cons

variable {coord : Coordinate} {i : Item α}

theorem wishes_cons_of_none (h : takeQuestion coord i.questions = none) (items : List (Item α)) :
    wishes coord (i :: items) = wishes coord items := by
  simp [wishes, h]

theorem wishes_cons_of_some {species : String} {rest : List Placement}
    (h : takeQuestion coord i.questions = some (species, rest)) (items : List (Item α)) :
    wishes coord (i :: items) = (species, { i with questions := rest }) :: wishes coord items := by
  simp [wishes, h]

theorem deferred_cons_of_none (h : takeQuestion coord i.questions = none)
    (items : List (Item α)) : deferred coord (i :: items) = i :: deferred coord items := by
  simp [deferred, h]

theorem deferred_cons_of_some {taken : String × List Placement}
    (h : takeQuestion coord i.questions = some taken) (items : List (Item α)) :
    deferred coord (i :: items) = deferred coord items := by
  simp [deferred, h]

end Cons

theorem answered_eq_wishes (coord : Coordinate) (species : String) (items : List (Item α)) :
    answered coord species items =
      ((wishes coord items).filter (·.1 = species)).map (·.2) := by
  unfold answered wishes
  rw [List.filter_filterMap, List.map_filterMap]
  congr 1
  funext i
  cases takeQuestion coord i.questions with
  | none => rfl
  | some taken => by_cases h : taken.1 = species <;> simp [h]

theorem mem_wanted_of_mem_wishes {coord : Coordinate} {items : List (Item α)}
    {w : String × Item α} (h : w ∈ wishes coord items) : w.1 ∈ wanted coord items := by
  obtain ⟨i, hi, hw⟩ := List.mem_filterMap.1 h
  obtain ⟨⟨species, rest⟩, ht, rfl⟩ := Option.map_eq_some_iff.1 hw
  exact mem_wanted.2 ⟨i, hi, rest, ht⟩

/-- The arms of a query share out the items that ask about its coordinate. -/
theorem flatMap_answered_perm (coord : Coordinate) (items : List (Item α)) :
    ((wanted coord items).flatMap fun species => answered coord species items).Perm
      ((wishes coord items).map (·.2)) := by
  simp only [answered_eq_wishes, ← List.map_flatMap]
  apply List.Perm.map
  exact flatMap_filter_perm (fun w : String × Item α => w.1) (wanted_nodup coord items)
    fun _ => mem_wanted_of_mem_wishes

/-- A query loses no item: it is in an arm or behind the query. -/
theorem map_payload_perm (coord : Coordinate) (items : List (Item α)) :
    (((wishes coord items).map (·.2)).map (·.payload) ++
      (deferred coord items).map (·.payload)).Perm (items.map (·.payload)) := by
  induction items with
  | nil => rfl
  | cons i items ih =>
    cases ht : takeQuestion coord i.questions with
    | none =>
      rw [wishes_cons_of_none ht, deferred_cons_of_none ht, List.map_cons, List.map_cons]
      exact List.perm_middle.trans (ih.cons i.payload)
    | some taken =>
      rw [wishes_cons_of_some ht, deferred_cons_of_some ht]
      exact ih.cons i.payload

theorem exists_of_mem_answered {coord : Coordinate} {species : String} {items : List (Item α)}
    {j : Item α} (h : j ∈ answered coord species items) :
    ∃ i ∈ items, takeQuestion coord i.questions = some (species, j.questions) := by
  obtain ⟨i, hi, hij⟩ := List.mem_filterMap.1 h
  cases ht : takeQuestion coord i.questions with
  | none => simp [ht] at hij
  | some taken =>
    simp only [ht, Option.ite_none_right_eq_some, Option.some.injEq] at hij
    obtain ⟨rfl, rfl⟩ := hij
    exact ⟨i, hi, ht⟩

theorem questionCoords_cons (i : Item α) (items : List (Item α)) :
    questionCoords (i :: items) = i.questions.map (·.coord) ++ questionCoords items :=
  List.flatMap_cons

theorem mem_questionCoords {coord : Coordinate} {items : List (Item α)} :
    coord ∈ questionCoords items ↔ ∃ i ∈ items, ∃ q ∈ i.questions, q.coord = coord := by
  simp [questionCoords]

theorem questionCoords_answered_perm (coord : Coordinate) (items : List (Item α)) :
    ((wanted coord items).flatMap fun species =>
        questionCoords (answered coord species items)).Perm
      (questionCoords ((wishes coord items).map (·.2))) := by
  have hperm := (flatMap_answered_perm coord items).flatMap_right fun i : Item α =>
    i.questions.map (·.coord)
  rwa [List.flatMap_assoc] at hperm

theorem questionCoords_opened (items : List (Item α)) :
    questionCoords (opened items) = questionCoords items := by
  induction items with
  | nil => rfl
  | cons i items ih =>
    unfold questionCoords opened at ih ⊢
    cases hq : i.questions with
    | nil => simpa [hq] using ih
    | cons q qs => simpa [hq] using ih

theorem exists_takeQuestion {items : List (Item α)} {coord : Coordinate}
    (h : mostCommon items = some coord) :
    ∃ i ∈ items, ∃ species rest, takeQuestion coord i.questions = some (species, rest) := by
  obtain ⟨i, hi, q, hq, hcoord⟩ := mostCommon_mem h
  cases ht : takeQuestion coord i.questions with
  | none => exact absurd hcoord (takeQuestion_eq_none_iff.1 ht q hq)
  | some taken => exact ⟨i, hi, taken.1, taken.2, ht⟩

theorem wishes_ne_nil {items : List (Item α)} {coord : Coordinate}
    (h : mostCommon items = some coord) : wishes coord items ≠ [] := by
  obtain ⟨i, hi, species, rest, ht⟩ := exists_takeQuestion h
  apply List.ne_nil_of_mem (a := (species, { i with questions := rest }))
  exact List.mem_filterMap.2 ⟨i, hi, by rw [ht]; rfl⟩

theorem questionCoords_perm (coord : Coordinate) (items : List (Item α)) :
    (questionCoords items).Perm
      (List.replicate (wishes coord items).length coord ++
        questionCoords ((wishes coord items).map (·.2)) ++
        questionCoords (deferred coord items)) := by
  apply List.perm_iff_count.2
  intro c
  induction items with
  | nil => rfl
  | cons i items ih =>
    rw [List.count_append, List.count_append] at ih ⊢
    cases ht : takeQuestion coord i.questions with
    | none =>
      rw [wishes_cons_of_none ht, deferred_cons_of_none ht, questionCoords_cons,
        questionCoords_cons, List.count_append, List.count_append]
      omega
    | some taken =>
      have hcount := ((takeQuestion_perm ht).map (·.coord)).count_eq c
      rw [List.map_cons, List.count_cons] at hcount
      rw [wishes_cons_of_some ht, deferred_cons_of_some ht, List.map_cons, List.length_cons,
        List.replicate_succ, List.count_cons, questionCoords_cons, questionCoords_cons,
        List.count_append, List.count_append, hcount]
      dsimp only
      omega

end Synthesis

open Synthesis

namespace Tree

theorem payloads_synthesize_perm (items : List (Item α)) :
    (synthesize items).payloads.Perm (items.map (·.payload)) := by
  induction items using synthesize.induct with
  | case1 items iha ihd =>
    have hitems : (ready items ++ (opened items).map (·.payload)).Perm (items.map (·.payload)) := by
      unfold ready opened
      rw [← List.map_append]
      exact (List.filter_append_perm _ items).map _
    refine List.Perm.trans ?_ hitems
    cases h : mostCommon (opened items) with
    | none =>
      rw [synthesize_of_none h, payloads_fireAll, opened_eq_nil h]
      rfl
    | some coord =>
      rw [synthesize_of_some h, payloads_fireAll, payloads, Arms.payloads_ofList,
        List.flatMap_map]
      apply List.Perm.append_left
      have harms := List.Perm.flatMap_left (wanted coord (opened items))
        fun species _ => iha coord h species
      have hsome := (flatMap_answered_perm coord (opened items)).map (·.payload)
      rw [List.map_flatMap] at hsome
      exact ((harms.trans hsome).append (ihd coord h)).trans (map_payload_perm coord (opened items))

theorem queries_synthesize_subperm (items : List (Item α)) :
    (synthesize items).queries.Subperm (questionCoords items) := by
  induction items using synthesize.induct with
  | case1 items iha ihd =>
    rw [← questionCoords_opened]
    cases h : mostCommon (opened items) with
    | none =>
      rw [synthesize_of_none h, queries_fireAll]
      exact List.nil_subperm
    | some coord =>
      rw [synthesize_of_some h, queries_fireAll, queries, Arms.queries_ofList, List.flatMap_map]
      have harms := (subperm_flatMap (wanted coord (opened items))
        fun species => iha coord h species).trans (questionCoords_answered_perm coord _).subperm
      have hquestions := questionCoords_perm coord (opened items)
      obtain ⟨w, ws, hw⟩ := List.exists_cons_of_ne_nil (wishes_ne_nil h)
      rw [hw, List.length_cons, List.replicate_succ, List.cons_append, List.cons_append,
        List.append_assoc, ← hw] at hquestions
      refine List.Subperm.trans ?_ hquestions.symm.subperm
      apply (List.subperm_cons coord).2
      exact (harms.append (ihd coord h)).trans (List.sublist_append_right _ _).subperm

theorem queries_synthesize_subset (items : List (Item α)) :
    (synthesize items).queries ⊆ questionCoords items :=
  (queries_synthesize_subperm items).subset

theorem apart_synthesize (items : List (Item α)) : (synthesize items).Apart := by
  induction items using synthesize.induct with
  | case1 items iha ihd =>
    cases h : mostCommon (opened items) with
    | none =>
      rw [synthesize_of_none h, apart_fireAll]
      exact trivial
    | some coord =>
      rw [synthesize_of_some h, apart_fireAll]
      refine ⟨?_, ?_, ihd coord h⟩
      · rw [Arms.labels_ofList, List.map_map]
        exact (wanted_nodup coord (opened items)).map fun _ _ h => h
      · apply Arms.apart_ofList
        intro arm harm
        obtain ⟨species, -, rfl⟩ := List.mem_map.1 harm
        exact iha coord h species

theorem exists_question_of_mem_caseSpecies {items : List (Item α)} {species : String}
    (h : species ∈ (synthesize items).caseSpecies) :
    ∃ i ∈ items, ∃ q ∈ i.questions, q.species = species := by
  induction items using synthesize.induct with
  | case1 items iha ihd =>
    cases hcommon : mostCommon (opened items) with
    | none =>
      rw [synthesize_of_none hcommon, caseSpecies_fireAll] at h
      simp [caseSpecies] at h
    | some coord =>
      rw [synthesize_of_some hcommon, caseSpecies_fireAll, caseSpecies, List.mem_append,
        Arms.mem_caseSpecies_ofList] at h
      rcases h with ⟨arm, harm, h⟩ | h
      · obtain ⟨label, hlabel, rfl⟩ := List.mem_map.1 harm
        rcases h with rfl | h
        · obtain ⟨i, hi, rest, ht⟩ := mem_wanted.1 hlabel
          exact ⟨i, List.mem_of_mem_filter hi, _,
            (takeQuestion_perm ht).mem_iff.2 List.mem_cons_self, rfl⟩
        · obtain ⟨j, hj, q, hq, rfl⟩ := iha coord hcommon label h
          obtain ⟨i, hi, ht⟩ := exists_of_mem_answered hj
          exact ⟨i, List.mem_of_mem_filter hi, q, (takeQuestion_sublist ht).subset hq, rfl⟩
      · obtain ⟨i, hi, q, hq, rfl⟩ := ihd coord hcommon h
        exact ⟨i, List.mem_of_mem_filter (List.mem_of_mem_filter hi), q, hq, rfl⟩

end Tree
end LatticeKinetics
