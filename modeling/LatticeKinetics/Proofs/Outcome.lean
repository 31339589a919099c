import Mathlib.Data.List.Forall2

/-! When a computation that may fail succeeds. A sequence succeeds exactly when each of its steps
does, so what a sequence of checks establishes can be read off step by step. -/

namespace LatticeKinetics

variable {ε ε' α β : Type}

@[simp] theorem bind_eq_ok_iff {first : Except ε α} {next : α → Except ε β} {b : β} :
    (first >>= next) = .ok b ↔ ∃ a, first = .ok a ∧ next a = .ok b := by
  cases first with
  | error cause => exact ⟨nofun, fun ⟨_, h, _⟩ => nomatch h⟩
  | ok a => exact ⟨fun h => ⟨a, rfl, h⟩, fun ⟨_, h, hb⟩ => Except.ok.inj h ▸ hb⟩

@[simp] theorem pure_eq_ok_iff {a b : α} : (pure a : Except ε α) = .ok b ↔ a = b :=
  ⟨Except.ok.inj, congrArg Except.ok⟩

@[simp] theorem guard_eq_ok_iff {p : Prop} [Decidable p] {cause : ε} {after : β → Except ε α}
    {rest : Except ε α} {a : α} :
    (if p then throw cause >>= after else rest) = .ok a ↔ ¬p ∧ rest = .ok a := by
  by_cases h : p <;> simp [h]

@[simp] theorem ite_error_eq_ok_iff {p : Prop} [Decidable p] {cause : ε} {rest : Except ε α}
    {a : α} : (if p then .error cause else rest) = .ok a ↔ ¬p ∧ rest = .ok a := by
  by_cases h : p <;> simp [h]

@[simp] theorem mapError_eq_ok_iff {outcome : Except ε α} {wrap : ε → ε'} {a : α} :
    outcome.mapError wrap = .ok a ↔ outcome = .ok a := by
  cases outcome <;> simp [Except.mapError]

theorem map_eq_error_iff {outcome : Except ε α} {f : α → β} {cause : ε} :
    outcome.map f = .error cause ↔ outcome = .error cause := by
  cases outcome <;> simp [Except.map]

theorem toOption_eq_some_iff {outcome : Except ε α} {a : α} :
    outcome.toOption = some a ↔ outcome = .ok a := by
  cases outcome <;> simp [Except.toOption]

/-- A list worked through one member at a time: every result comes from its own member. -/
theorem forall₂_of_traversal (f : α → Except ε β) (traverse : List α → Except ε (List β))
    (hnil : traverse [] = .ok [])
    (hcons : ∀ a as, traverse (a :: as) = do
      let b ← f a
      let bs ← traverse as
      pure (b :: bs))
    {as : List α} {bs : List β} (h : traverse as = .ok bs) :
    List.Forall₂ (fun a b => f a = .ok b) as bs := by
  induction as generalizing bs with
  | nil =>
    obtain rfl := Except.ok.inj (hnil.symm.trans h)
    exact .nil
  | cons a as ih =>
    rw [hcons] at h
    simp only [bind_eq_ok_iff, pure_eq_ok_iff] at h
    obtain ⟨b, hb, bs, hbs, rfl⟩ := h
    exact .cons hb (ih hbs)

theorem exists_traversal_eq_ok (f : α → Except ε β) (traverse : List α → Except ε (List β))
    (hnil : traverse [] = .ok [])
    (hcons : ∀ a as, traverse (a :: as) = do
      let b ← f a
      let bs ← traverse as
      pure (b :: bs))
    {as : List α} (h : ∀ a ∈ as, ∃ b, f a = .ok b) : ∃ bs, traverse as = .ok bs := by
  induction as with
  | nil => exact ⟨[], hnil⟩
  | cons a as ih =>
    obtain ⟨b, hb⟩ := h a (by simp)
    obtain ⟨bs, hbs⟩ := ih fun a' ha' => h a' (List.mem_cons_of_mem _ ha')
    refine ⟨b :: bs, ?_⟩
    simp only [hcons, bind_eq_ok_iff, pure_eq_ok_iff]
    exact ⟨b, hb, bs, hbs, rfl⟩

theorem forall₂_getElem? {R : α → β → Prop} {as : List α} {bs : List β}
    (h : List.Forall₂ R as bs) {i : Nat} {a : α} (ha : as[i]? = some a) :
    ∃ b, bs[i]? = some b ∧ R a b := by
  obtain ⟨hlt, rfl⟩ := List.getElem?_eq_some_iff.1 ha
  have hlt' : i < bs.length := h.length_eq ▸ hlt
  exact ⟨bs[i], List.getElem?_eq_getElem hlt', h.get hlt hlt'⟩

theorem map_eq_map_of_forall₂ {γ : Type} {R : α → β → Prop} {f : α → γ} {g : β → γ} {as : List α}
    {bs : List β} (h : List.Forall₂ R as bs) (hR : ∀ a b, R a b → f a = g b) :
    as.map f = bs.map g := by
  rw [← List.forall₂_eq_eq_eq, List.forall₂_map_left_iff, List.forall₂_map_right_iff]
  exact h.imp hR

theorem forall₂_comp {γ : Type} {R : α → β → Prop} {S : β → γ → Prop} {T : α → γ → Prop}
    {as : List α} {bs : List β} {cs : List γ} (hR : List.Forall₂ R as bs)
    (hS : List.Forall₂ S bs cs) (hT : ∀ a b c, R a b → S b c → T a c) : List.Forall₂ T as cs := by
  induction hR generalizing cs with
  | nil =>
    cases hS
    exact .nil
  | cons hab _ ih =>
    cases hS with
    | cons hbc hS => exact .cons (hT _ _ _ hab hbc) (ih hS)

theorem forall₂_mem {R : α → β → Prop} {as : List α} {bs : List β} (h : List.Forall₂ R as bs)
    {b : β} (hb : b ∈ bs) : ∃ a ∈ as, R a b := by
  obtain ⟨i, hi⟩ := List.getElem?_of_mem hb
  obtain ⟨a, ha, hR⟩ := forall₂_getElem? h.flip hi
  exact ⟨a, List.mem_of_getElem? ha, hR⟩

end LatticeKinetics
