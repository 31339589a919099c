import Mathlib.Algebra.GroupWithZero.Nat
import Mathlib.Data.List.MinMax
import LatticeKinetics.Tree.Synthesis

/-! Which coordinate is queried next: of those that the items ask about, one that occurs in most
questions, and of several such the one that occurs first. The tally keeps one entry for each
coordinate, in the order of first occurrence, so the first entry with the highest count is it. -/

namespace LatticeKinetics.Synthesis

variable {α : Type}

private theorem eq_or_rel_of_idxOf_le {β : Type} [DecidableEq β] {R : β → β → Prop} {bs : List β}
    (h : bs.Pairwise R) {a b : β} (ha : a ∈ bs) (hb : b ∈ bs) (hle : bs.idxOf a ≤ bs.idxOf b) :
    a = b ∨ R a b := by
  rcases Nat.eq_or_lt_of_le hle with heq | hlt
  · exact .inl ((List.idxOf_inj ha).1 heq)
  · have hrel := List.pairwise_iff_getElem.1 h _ _ (List.idxOf_lt_length_of_mem ha)
      (List.idxOf_lt_length_of_mem hb) hlt
    rw [List.getElem_idxOf, List.getElem_idxOf] at hrel
    exact .inr hrel

structure Tallies (entries : List (Coordinate × Nat)) (coords : List Coordinate) : Prop where
  keys : ∀ c, c ∈ entries.map (·.1) ↔ c ∈ coords
  count : ∀ e ∈ entries, e.2 = coords.count e.1
  order : entries.Pairwise fun d e => coords.idxOf d.1 < coords.idxOf e.1

section Entries

variable {coord : Coordinate} {entries : List (Coordinate × Nat)} {coords : List Coordinate}

theorem bump_of_not_mem (h : coord ∉ entries.map (·.1)) :
    bump coord entries = entries ++ [(coord, 1)] := by
  induction entries with
  | nil => rfl
  | cons e entries ih =>
    rw [List.map_cons, List.mem_cons, not_or] at h
    rw [bump, if_neg (Ne.symm h.1), ih h.2, List.cons_append]

theorem bump_of_mem (hnodup : (entries.map (·.1)).Nodup) (h : coord ∈ entries.map (·.1)) :
    bump coord entries = entries.map fun e => (e.1, if e.1 = coord then e.2 + 1 else e.2) := by
  induction entries with
  | nil => simp at h
  | cons e entries ih =>
    rw [List.map_cons, List.nodup_cons] at hnodup
    rw [bump, List.map_cons]
    by_cases he : e.1 = coord
    · rw [if_pos he, if_pos he, List.cons_inj_right]
      -- The coordinate has one entry only, so all behind it stay as they are.
      apply (List.map_id _).symm.trans
      apply List.map_congr_left
      rintro d hd
      rw [if_neg]
      · rfl
      · rintro rfl
        exact hnodup.1 (he ▸ List.mem_map_of_mem hd)
    · rw [if_neg he, if_neg he, ih hnodup.2 ((List.mem_cons.1 h).resolve_left (Ne.symm he))]

theorem Tallies.mem (h : Tallies entries coords) {e : Coordinate × Nat} (he : e ∈ entries) :
    e.1 ∈ coords :=
  (h.keys e.1).1 (List.mem_map_of_mem he)

theorem Tallies.nodup (h : Tallies entries coords) : (entries.map (·.1)).Nodup := by
  apply List.pairwise_map.2
  exact h.order.imp fun hlt heq => by simp [heq] at hlt

theorem tallies_nil : Tallies [] [] :=
  ⟨by simp, by simp, .nil⟩

theorem Tallies.bump (h : Tallies entries coords) (coord : Coordinate) :
    Tallies (bump coord entries) (coords ++ [coord]) := by
  have hplace : ∀ e ∈ entries, (coords ++ [coord]).idxOf e.1 = coords.idxOf e.1 :=
    fun e he => List.idxOf_append_of_mem (h.mem he)
  have horder : entries.Pairwise fun d e =>
      (coords ++ [coord]).idxOf d.1 < (coords ++ [coord]).idxOf e.1 := by
    apply h.order.imp_of_mem
    intro d e hd he hlt
    rwa [hplace d hd, hplace e he]
  by_cases hmem : coord ∈ entries.map (·.1)
  · rw [bump_of_mem h.nodup hmem]
    refine ⟨?_, ?_, List.pairwise_map.2 horder⟩
    · intro c
      have hcoord := (h.keys coord).1 hmem
      rw [List.map_map, List.mem_append, List.mem_singleton]
      refine (h.keys c).trans ⟨.inl, ?_⟩
      rintro (hc | rfl)
      · exact hc
      · exact hcoord
    · intro e he
      obtain ⟨d, hd, rfl⟩ := List.mem_map.1 he
      rw [List.count_append, List.count_singleton, ← h.count d hd]
      by_cases hdc : d.1 = coord
      · simp [hdc]
      · simp [hdc, Ne.symm hdc]
  · rw [bump_of_not_mem hmem]
    have hnew : coord ∉ coords := fun hc => hmem ((h.keys coord).2 hc)
    refine ⟨?_, ?_, ?_⟩
    · intro c
      rw [List.map_append, List.mem_append, List.mem_append, h.keys c]
      simp
    · intro e he
      rw [List.count_append, List.count_singleton]
      rcases List.mem_append.1 he with he | he
      · have hne : coord ≠ e.1 := fun heq => hnew (heq ▸ h.mem he)
        simp [h.count e he, hne]
      · obtain rfl := List.mem_singleton.1 he
        simp [List.count_eq_zero_of_not_mem hnew]
    · apply List.pairwise_append.2
      refine ⟨horder, by simp, ?_⟩
      intro d hd e he
      obtain rfl := List.mem_singleton.1 he
      rw [hplace d hd, List.idxOf_append_of_notMem hnew]
      exact Nat.lt_add_right _ (List.idxOf_lt_length_of_mem (h.mem hd))

theorem tallies_tally (coords : List Coordinate) : Tallies (tally coords) coords := by
  induction coords using List.reverseRecOn with
  | nil => exact tallies_nil
  | append_singleton coords coord ih =>
    unfold tally at ih ⊢
    rw [List.foldl_append]
    exact ih.bump coord

theorem argmax_eq_leader (best : Coordinate × Nat) (rest : List (Coordinate × Nat)) :
    (best :: rest).argmax (·.2) = some (leader best rest) := by
  unfold List.argmax
  rw [List.foldl_cons]
  change rest.foldl _ (some best) = _
  induction rest generalizing best with
  | nil => rfl
  | cons e rest ih =>
    rw [leader, ← ih, List.foldl_cons]
    congr 1
    change (if best.2 < e.2 then some e else some best) = _
    split <;> rfl

theorem Tallies.argmax_eq (h : Tallies entries coords) {e : Coordinate × Nat}
    (he : entries.argmax (·.2) = some e) : coords.argmax (coords.count ·) = some e.1 := by
  obtain ⟨hmem, hmost, hfirst⟩ := List.argmax_eq_some_iff.1 he
  apply List.argmax_eq_some_iff.2
  refine ⟨h.mem hmem, ?_, ?_⟩
  · intro c hc
    obtain ⟨d, hd, rfl⟩ := List.mem_map.1 ((h.keys c).2 hc)
    rw [← h.count d hd, ← h.count e hmem]
    exact hmost d hd
  · intro c hc hle
    obtain ⟨d, hd, rfl⟩ := List.mem_map.1 ((h.keys c).2 hc)
    rw [← h.count d hd, ← h.count e hmem] at hle
    rcases eq_or_rel_of_idxOf_le h.order hmem hd (hfirst d hd hle) with rfl | hlt
    · exact Nat.le_refl _
    · exact Nat.le_of_lt hlt

end Entries

theorem mostCommon_eq_argmax (items : List (Item α)) :
    mostCommon items = (questionCoords items).argmax ((questionCoords items).count ·) := by
  have htallies := tallies_tally (questionCoords items)
  unfold mostCommon
  split
  · rename_i hnil
    rw [hnil] at htallies
    have hcoords : questionCoords items = [] :=
      List.eq_nil_iff_forall_not_mem.2 fun c hc => by simpa using (htallies.keys c).2 hc
    rw [hcoords, List.argmax_nil]
  · rename_i e rest hcons
    rw [hcons] at htallies
    exact (htallies.argmax_eq (argmax_eq_leader e rest)).symm

theorem mostCommon_eq_none_iff {items : List (Item α)} :
    mostCommon items = none ↔ ∀ i ∈ items, i.questions = [] := by
  rw [mostCommon_eq_argmax, List.argmax_eq_none]
  simp [questionCoords]

/-- How many questions are about the coordinate. An item that asks twice counts twice. -/
def timesAsked (items : List (Item α)) (coord : Coordinate) : Nat :=
  (items.map fun i => i.questions.countP (·.coord = coord)).sum

theorem count_questionCoords_eq_timesAsked (items : List (Item α)) (coord : Coordinate) :
    (questionCoords items).count coord = timesAsked items coord := by
  unfold questionCoords timesAsked
  rw [List.count_flatMap]
  refine congrArg List.sum (List.map_congr_left fun i _ => ?_)
  rw [Function.comp_apply, List.count_eq_countP, List.countP_map]
  exact List.countP_congr fun q _ => by simp

theorem argmax_count_eq_some_iff {coords : List Coordinate} {coord : Coordinate} :
    coords.argmax (coords.count ·) = some coord ↔ coord ∈ coords ∧
      (∀ other, coords.count other ≤ coords.count coord) ∧
      ∀ other, coords.idxOf other < coords.idxOf coord →
        coords.count other < coords.count coord := by
  rw [List.argmax_eq_some_iff]
  constructor
  · rintro ⟨hmem, hmost, hfirst⟩
    refine ⟨hmem, fun other => ?_, fun other hlt => ?_⟩
    · by_cases hother : other ∈ coords
      · exact hmost other hother
      · rw [List.count_eq_zero_of_not_mem hother]
        exact Nat.zero_le _
    · have hother : other ∈ coords :=
        List.idxOf_lt_length_iff.1 (Nat.lt_of_lt_of_le hlt List.idxOf_le_length)
      apply Nat.lt_of_not_le
      intro hle
      exact Nat.not_le_of_lt hlt (hfirst other hother hle)
  · rintro ⟨hmem, hmost, hfirst⟩
    refine ⟨hmem, fun other _ => hmost other, fun other _ hle => ?_⟩
    apply Nat.le_of_not_lt
    intro hlt
    exact Nat.not_le_of_lt (hfirst other hlt) hle

/-- Nothing is queried next exactly when there are no questions left. Otherwise it is a coordinate
that no other exceeds in questions and that exceeds every coordinate that comes up earlier. -/
theorem query_goes_to_first_of_most_asked (items : List (Item α)) :
    (mostCommon items = none ↔ ∀ i ∈ items, i.questions = []) ∧
      ∀ coord, mostCommon items = some coord ↔
        coord ∈ questionCoords items ∧
        (∀ other, timesAsked items other ≤ timesAsked items coord) ∧
        ∀ other, (questionCoords items).idxOf other < (questionCoords items).idxOf coord →
          timesAsked items other < timesAsked items coord := by
  refine ⟨mostCommon_eq_none_iff, fun coord => ?_⟩
  rw [mostCommon_eq_argmax, argmax_count_eq_some_iff]
  simp only [count_questionCoords_eq_timesAsked]

/-- With one question each the earlier coordinate is queried; a second question outweighs it. -/
example :
    let here : Coordinate := ⟨[0], "a", "l"⟩
    let there : Coordinate := ⟨[1], "a", "l"⟩
    mostCommon [⟨[⟨here, "A"⟩], 1⟩, ⟨[⟨there, "A"⟩], 2⟩] = some here ∧
      mostCommon [⟨[⟨here, "A"⟩], 1⟩, ⟨[⟨there, "A"⟩, ⟨there, "B"⟩], 2⟩] = some there := by
  decide

end LatticeKinetics.Synthesis
