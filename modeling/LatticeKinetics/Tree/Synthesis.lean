import LatticeKinetics.Tree.Basic

/-! Building a tree from items that each fire once their questions are all answered as they wish.
Items without questions fire first. The coordinate most often asked about is queried next, the items
that ask about it go to the arm of the species they want, and all others follow behind the query. -/

namespace LatticeKinetics

structure Item (α : Type) where
  questions : List Placement
  payload : α
deriving DecidableEq, Repr

namespace Synthesis

variable {α : Type}

def bump (coord : Coordinate) : List (Coordinate × Nat) → List (Coordinate × Nat)
  | [] => [(coord, 1)]
  | (c, n) :: rest => if c = coord then (c, n + 1) :: rest else (c, n) :: bump coord rest

def tally (coords : List Coordinate) : List (Coordinate × Nat) :=
  coords.foldl (fun counts coord => bump coord counts) []

def leader : Coordinate × Nat → List (Coordinate × Nat) → Coordinate × Nat
  | best, [] => best
  | best, e :: rest => leader (if best.2 < e.2 then e else best) rest

def questionCoords (items : List (Item α)) : List Coordinate :=
  items.flatMap fun i => i.questions.map (·.coord)

/-- The coordinate with the most questions; of several, the one asked about first. -/
def mostCommon (items : List (Item α)) : Option Coordinate :=
  match tally (questionCoords items) with
  | [] => none
  | e :: rest => some (leader e rest).1

def takeQuestion (coord : Coordinate) : List Placement → Option (String × List Placement)
  | [] => none
  | q :: qs =>
    if q.coord = coord then some (q.species, qs)
    else (takeQuestion coord qs).map fun (species, rest) => (species, q :: rest)

def wanted (coord : Coordinate) : List (Item α) → List String
  | [] => []
  | i :: items =>
    match takeQuestion coord i.questions with
    | none => wanted coord items
    | some (species, _) => species :: (wanted coord items).filter (· != species)

def answered (coord : Coordinate) (species : String) (items : List (Item α)) : List (Item α) :=
  items.filterMap fun i =>
    match takeQuestion coord i.questions with
    | some (s, rest) => if s = species then some { i with questions := rest } else none
    | none => none

def deferred (coord : Coordinate) (items : List (Item α)) : List (Item α) :=
  items.filter fun i => (takeQuestion coord i.questions).isNone

def weight (items : List (Item α)) : Nat :=
  (items.flatMap (·.questions)).length + items.length

@[simp] theorem weight_nil : weight ([] : List (Item α)) = 0 := rfl

@[simp] theorem weight_cons (i : Item α) (items : List (Item α)) :
    weight (i :: items) = i.questions.length + 1 + weight items := by
  simp only [weight, List.flatMap_cons, List.length_append, List.length_cons]
  omega

/-- The question taken is the first about its coordinate, and all others stay in their order. -/
theorem takeQuestion_eq_some {coord : Coordinate} {qs rest : List Placement} {species : String}
    (h : takeQuestion coord qs = some (species, rest)) :
    ∃ before after, (∀ q ∈ before, q.coord ≠ coord) ∧
      qs = before ++ ⟨coord, species⟩ :: after ∧ rest = before ++ after := by
  induction qs generalizing rest with
  | nil => simp [takeQuestion] at h
  | cons q qs ih =>
    simp only [takeQuestion] at h
    split at h
    · rename_i hq
      obtain ⟨rfl, rfl⟩ := Prod.mk.inj (Option.some.inj h)
      exact ⟨[], qs, by simp, by rw [← hq]; rfl, rfl⟩
    · rename_i hq
      obtain ⟨⟨s, r⟩, hr, heq⟩ := Option.map_eq_some_iff.1 h
      obtain ⟨rfl, rfl⟩ := Prod.mk.inj heq
      obtain ⟨before, after, hbefore, rfl, rfl⟩ := ih hr
      exact ⟨q :: before, after, by simpa [hq] using hbefore, rfl, rfl⟩

theorem takeQuestion_length {coord : Coordinate} {qs rest : List Placement} {species : String}
    (h : takeQuestion coord qs = some (species, rest)) : rest.length + 1 = qs.length := by
  obtain ⟨before, after, -, rfl, rfl⟩ := takeQuestion_eq_some h
  simp only [List.length_append, List.length_cons, Nat.add_assoc]

theorem takeQuestion_eq_none_iff {coord : Coordinate} {qs : List Placement} :
    takeQuestion coord qs = none ↔ ∀ q ∈ qs, q.coord ≠ coord := by
  induction qs with
  | nil => simp [takeQuestion]
  | cons q qs ih =>
    by_cases h : q.coord = coord <;> simp [takeQuestion, h, ih]

theorem weight_filter_le (p : Item α → Bool) (items : List (Item α)) :
    weight (items.filter p) ≤ weight items := by
  induction items with
  | nil => simp
  | cons i items ih =>
    simp only [List.filter_cons]
    split <;> simp only [weight_cons] <;> omega

theorem weight_answered (coord : Coordinate) (species : String) (items : List (Item α)) :
    weight (answered coord species items) + (answered coord species items).length ≤
      weight items := by
  induction items with
  | nil => simp [answered]
  | cons i items ih =>
    simp only [answered, List.filterMap_cons]
    split
    · simp only [answered] at ih
      simp only [weight_cons]
      omega
    · rename_i i' hi
      split at hi
      · rename_i s rest hrest
        split at hi
        · obtain rfl := Option.some.inj hi
          have := takeQuestion_length hrest
          simp only [answered] at ih
          simp only [weight_cons, List.length_cons]
          omega
        · exact absurd hi (by simp)
      · exact absurd hi (by simp)

theorem weight_answered_lt (coord : Coordinate) (species : String) {items : List (Item α)}
    (h : items ≠ []) : weight (answered coord species items) < weight items := by
  have hle := weight_answered coord species items
  cases hs : answered coord species items with
  | nil =>
    obtain ⟨i, rest, rfl⟩ := List.exists_cons_of_ne_nil h
    simp only [weight_nil, weight_cons]
    omega
  | cons j js =>
    rw [hs] at hle
    simp only [List.length_cons] at hle
    omega

theorem weight_filter_lt {p : Item α → Bool} {items : List (Item α)}
    (h : ∃ i ∈ items, p i = false) : weight (items.filter p) < weight items := by
  induction items with
  | nil => simp at h
  | cons i items ih =>
    by_cases hp : p i = true
    · obtain ⟨j, hj, hjp⟩ := h
      rcases List.mem_cons.1 hj with rfl | hj
      · simp [hp] at hjp
      · have := ih ⟨j, hj, hjp⟩
        simp only [List.filter_cons, hp, ↓reduceIte, weight_cons]
        omega
    · have := weight_filter_le p items
      simp only [List.filter_cons, hp, Bool.false_eq_true, ↓reduceIte, weight_cons]
      omega

theorem mem_bump {coord : Coordinate} {counts : List (Coordinate × Nat)} {e : Coordinate × Nat}
    (h : e ∈ bump coord counts) : e.1 = coord ∨ ∃ n, (e.1, n) ∈ counts := by
  induction counts with
  | nil =>
    simp only [bump, List.mem_singleton] at h
    simp [h]
  | cons d counts ih =>
    obtain ⟨c, n⟩ := d
    simp only [bump] at h
    split at h
    · rename_i hc
      rcases List.mem_cons.1 h with rfl | h
      · exact .inl hc
      · exact .inr ⟨e.2, List.mem_cons_of_mem _ h⟩
    · rcases List.mem_cons.1 h with rfl | h
      · exact .inr ⟨n, by simp⟩
      · rcases ih h with h | ⟨m, hm⟩
        · exact .inl h
        · exact .inr ⟨m, List.mem_cons_of_mem _ hm⟩

theorem mem_foldl_bump {coords : List Coordinate} {counts : List (Coordinate × Nat)}
    {e : Coordinate × Nat} (h : e ∈ coords.foldl (fun t c => bump c t) counts) :
    e.1 ∈ coords ∨ ∃ n, (e.1, n) ∈ counts := by
  induction coords generalizing counts with
  | nil => exact .inr ⟨e.2, h⟩
  | cons c coords ih =>
    rcases ih h with h | ⟨n, hn⟩
    · exact .inl (List.mem_cons_of_mem _ h)
    · rcases mem_bump hn with h | h
      · exact .inl (List.mem_cons.2 (.inl h))
      · exact .inr h

theorem mem_of_mem_tally {coords : List Coordinate} {e : Coordinate × Nat}
    (h : e ∈ tally coords) : e.1 ∈ coords := by
  rcases mem_foldl_bump h with h | ⟨_, h⟩
  · exact h
  · simp at h

theorem leader_mem (best : Coordinate × Nat) (rest : List (Coordinate × Nat)) :
    leader best rest ∈ best :: rest := by
  induction rest generalizing best with
  | nil => simp [leader]
  | cons e rest ih =>
    simp only [leader]
    have := ih (if best.2 < e.2 then e else best)
    split at this <;> simp only [List.mem_cons] at this ⊢ <;> grind

theorem mostCommon_mem {items : List (Item α)} {coord : Coordinate}
    (h : mostCommon items = some coord) : ∃ i ∈ items, ∃ q ∈ i.questions, q.coord = coord := by
  unfold mostCommon at h
  split at h
  · simp at h
  · rename_i e rest ht
    obtain rfl := Option.some.inj h
    have hmem := mem_of_mem_tally (ht ▸ leader_mem e rest)
    simpa [questionCoords] using hmem

theorem weight_deferred_lt {items : List (Item α)} {coord : Coordinate}
    (h : mostCommon items = some coord) : weight (deferred coord items) < weight items := by
  obtain ⟨i, hi, q, hq, hqc⟩ := mostCommon_mem h
  refine weight_filter_lt ⟨i, hi, ?_⟩
  cases ht : takeQuestion coord i.questions with
  | none => exact absurd hqc (takeQuestion_eq_none_iff.1 ht q hq)
  | some _ => rfl

def ready (items : List (Item α)) : List α :=
  (items.filter (·.questions.isEmpty)).map (·.payload)

def opened (items : List (Item α)) : List (Item α) :=
  items.filter (!·.questions.isEmpty)

theorem weight_opened_le (items : List (Item α)) : weight (opened items) ≤ weight items :=
  weight_filter_le _ items

end Synthesis

open Synthesis in
def Tree.synthesize {α : Type} (items : List (Item α)) : Tree α :=
  Tree.fireAll (ready items) <|
    match _h : mostCommon (opened items) with
    | none => .done
    | some coord =>
      .query coord
        (Arms.ofList ((wanted coord (opened items)).map fun species =>
          (species, synthesize (answered coord species (opened items)))))
        (synthesize (deferred coord (opened items)))
termination_by weight items
decreasing_by
  · obtain ⟨i, hi, -⟩ := mostCommon_mem _h
    exact Nat.lt_of_lt_of_le (weight_answered_lt coord species (List.ne_nil_of_mem hi))
      (weight_opened_le items)
  · exact Nat.lt_of_lt_of_le (weight_deferred_lt _h) (weight_opened_le items)

end LatticeKinetics
