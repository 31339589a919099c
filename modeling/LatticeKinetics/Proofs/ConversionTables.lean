import Mathlib.Data.List.Nodup
import LatticeKinetics.Conversion

/-! What a conversion table answers after its entries were registered, overwritten and completed. A
table that is built by registering shifts has one entry for each pair of layers and holds the two
directions of a pair as inverses of each other. -/

namespace LatticeKinetics

namespace ConversionTable

variable {table other : ConversionTable} {source target : String} {shift : List Int}

section Entries

def key (e : Conversion) : String × String :=
  (e.source, e.target)

theorem lookup?_cons (e : Conversion) (entries : List Conversion) :
    (mk (e :: entries)).lookup? source target =
      if e.source = source ∧ e.target = target then some e.shift
      else (mk entries).lookup? source target := by
  unfold lookup?
  by_cases h : e.source = source ∧ e.target = target <;> simp [h]

theorem lookup?_setEntry (new : Conversion) (entries : List Conversion) :
    (mk (setEntry new entries)).lookup? source target =
      if new.source = source ∧ new.target = target then some new.shift
      else (mk entries).lookup? source target := by
  induction entries with
  | nil => rw [setEntry, lookup?_cons]
  | cons e entries ih =>
    unfold setEntry
    split
    · rw [lookup?_cons, lookup?_cons]
      grind
    · rw [lookup?_cons, lookup?_cons, ih]
      grind

theorem mem_map_key_setEntry (new : Conversion) (entries : List Conversion)
    {k : String × String} :
    k ∈ (setEntry new entries).map key ↔ k = key new ∨ k ∈ entries.map key := by
  induction entries with
  | nil => simp [setEntry]
  | cons e entries ih =>
    by_cases he : e.source = new.source ∧ e.target = new.target
    · have hkey : key e = key new := Prod.ext he.1 he.2
      simp [setEntry, he, hkey]
    · simp only [setEntry, he, if_false, List.map_cons, List.mem_cons, ih]
      grind

theorem map_key_setEntry_nodup (new : Conversion) {entries : List Conversion}
    (h : (entries.map key).Nodup) : ((setEntry new entries).map key).Nodup := by
  induction entries with
  | nil => simp [setEntry]
  | cons e entries ih =>
    rw [List.map_cons, List.nodup_cons] at h
    by_cases he : e.source = new.source ∧ e.target = new.target
    · have hkey : key e = key new := Prod.ext he.1 he.2
      simp only [setEntry, he, and_self, if_true, List.map_cons, List.nodup_cons]
      exact hkey ▸ h
    · simp only [setEntry, he, if_false, List.map_cons, List.nodup_cons, mem_map_key_setEntry]
      refine ⟨?_, ih h.2⟩
      rintro (hkey | hmem)
      · exact he ⟨congrArg Prod.fst hkey, congrArg Prod.snd hkey⟩
      · exact h.1 hmem

end Entries

theorem lookup?_insert (table : ConversionTable) (a b : String) (shift : List Int) :
    (table.insert a b shift).lookup? source target =
      if source = a ∧ target = b then some shift
      else if source = b ∧ target = a then some (shift.map (- ·))
      else table.lookup? source target := by
  unfold insert
  rw [lookup?_setEntry, lookup?_setEntry]
  simp only [eq_comm]

theorem contains_iff (table : ConversionTable) (source target : String) :
    table.contains source target = true ↔
      source = target ∨ ∃ shift, table.lookup? source target = some shift := by
  unfold contains
  rw [Bool.or_eq_true, beq_iff_eq, Option.isSome_iff_exists]

/-- One entry for each pair, and the two directions of a pair undo each other. -/
structure Consistent (table : ConversionTable) : Prop where
  keyed : (table.entries.map key).Nodup
  inverse : ∀ source target, source ≠ target →
    table.lookup? target source = (table.lookup? source target).map (·.map (- ·))

theorem consistent_empty : empty.Consistent :=
  ⟨List.nodup_nil, fun _ _ _ => rfl⟩

theorem map_neg_map_neg (shift : List Int) : (shift.map (- ·)).map (- ·) = shift := by
  rw [List.map_map]
  exact (List.map_congr_left fun x _ => Int.neg_neg x).trans (List.map_id shift)

theorem Consistent.insert (h : table.Consistent) (a b : String) (shift : List Int) :
    (table.insert a b shift).Consistent := by
  refine ⟨map_key_setEntry_nodup _ (map_key_setEntry_nodup _ h.keyed), ?_⟩
  intro source target hne
  rw [lookup?_insert, lookup?_insert]
  by_cases hab : source = a ∧ target = b
  · obtain ⟨rfl, rfl⟩ := hab
    simp [hne]
  · by_cases hba : source = b ∧ target = a
    · obtain ⟨rfl, rfl⟩ := hba
      rw [if_pos ⟨rfl, rfl⟩, if_neg hab, if_pos ⟨rfl, rfl⟩, Option.map_some, map_neg_map_neg]
    · have hab' : ¬(target = a ∧ source = b) := fun h => hba ⟨h.2, h.1⟩
      have hba' : ¬(target = b ∧ source = a) := fun h => hab ⟨h.2, h.1⟩
      simp only [hab, hba, hab', hba', if_false]
      exact h.inverse source target hne

theorem Consistent.mem_entries_iff (h : table.Consistent) :
    ⟨source, target, shift⟩ ∈ table.entries ↔ table.lookup? source target = some shift := by
  unfold lookup?
  constructor
  · intro hmem
    have hsome : (table.entries.find? fun e => e.source == source && e.target == target).isSome :=
      List.find?_isSome.2 ⟨_, hmem, by simp⟩
    obtain ⟨e, he⟩ := Option.isSome_iff_exists.1 hsome
    have hkey : e.source = source ∧ e.target = target := by simpa using List.find?_some he
    have heq := List.inj_on_of_nodup_map h.keyed (List.mem_of_find?_eq_some he) hmem
      (Prod.ext hkey.1 hkey.2)
    rw [he, heq]
    rfl
  · intro hlookup
    obtain ⟨e, he, rfl⟩ := Option.map_eq_some_iff.1 hlookup
    obtain ⟨rfl, rfl⟩ : e.source = source ∧ e.target = target := by simpa using List.find?_some he
    exact List.mem_of_find?_eq_some he

theorem Consistent.lookup?_eq_none_comm (h : table.Consistent)
    (hnone : table.lookup? source target = none) : table.lookup? target source = none := by
  by_cases hne : source = target
  · exact hne ▸ hnone
  · rw [h.inverse source target hne, hnone]
    rfl

section SharedUnitCell

variable {dimension : Nat} {names : List String}

theorem consistent_foldl_insert (name : String) (zeros : List Int) (h : table.Consistent) :
    (names.foldl (fun t other => t.insert name other zeros) table).Consistent := by
  induction names generalizing table with
  | nil => exact h
  | cons other names ih => exact ih (h.insert name other zeros)

theorem consistent_sharedUnitCell (h : table.Consistent) :
    (sharedUnitCell dimension names table).Consistent := by
  induction names generalizing table with
  | nil => exact h
  | cons name names ih => exact ih (consistent_foldl_insert name _ h)

theorem lookup?_foldl_insert (table : ConversionTable) (dimension : Nat) (name : String)
    (names : List String) (hne : source ≠ target) :
    (names.foldl (fun t other => t.insert name other (List.replicate dimension 0)) table).lookup?
        source target =
      if source = name ∧ target ∈ names ∨ target = name ∧ source ∈ names then
        some (List.replicate dimension 0)
      else table.lookup? source target := by
  induction names generalizing table with
  | nil => simp
  | cons other names ih =>
    have hneg : (List.replicate dimension (0 : Int)).map (- ·) = List.replicate dimension 0 := by
      simp
    rw [List.foldl_cons, ih, lookup?_insert, hneg]
    grind

theorem lookup?_sharedUnitCell (hne : source ≠ target) :
    (sharedUnitCell dimension names table).lookup? source target =
      if source ∈ names ∧ target ∈ names then some (List.replicate dimension 0)
      else table.lookup? source target := by
  induction names generalizing table with
  | nil => simp [sharedUnitCell]
  | cons name names ih =>
    rw [sharedUnitCell, ih, lookup?_foldl_insert table dimension name names hne]
    grind

theorem lookup?_sharedUnitCell_empty_iff (hne : source ≠ target) :
    (sharedUnitCell dimension names empty).lookup? source target = some shift ↔
      (source ∈ names ∧ target ∈ names) ∧ shift = List.replicate dimension 0 := by
  rw [lookup?_sharedUnitCell hne]
  split
  · rename_i hnames
    simp [hnames, eq_comm]
  · rename_i hnames
    simp [hnames, lookup?, empty]

end SharedUnitCell

section Complete

def completeEntry (table : ConversionTable) (e : Conversion) : ConversionTable :=
  if table.contains e.source e.target then table else table.insert e.source e.target e.shift

theorem complete_eq_foldl (table other : ConversionTable) :
    table.complete other = other.entries.foldl completeEntry table := rfl

theorem Consistent.completeEntry (h : table.Consistent) (e : Conversion) :
    (table.completeEntry e).Consistent := by
  unfold ConversionTable.completeEntry
  split
  · exact h
  · exact h.insert _ _ _

theorem Consistent.foldl_completeEntry (h : table.Consistent) (entries : List Conversion) :
    (entries.foldl ConversionTable.completeEntry table).Consistent := by
  induction entries generalizing table with
  | nil => exact h
  | cons e entries ih => exact ih (h.completeEntry e)

theorem Consistent.complete (h : table.Consistent) (other : ConversionTable) :
    (table.complete other).Consistent :=
  h.foldl_completeEntry other.entries

theorem Consistent.completeEntry_cases (h : table.Consistent) (e : Conversion) :
    table.contains e.source e.target = true ∧ table.completeEntry e = table ∨
      (e.source ≠ e.target ∧ table.lookup? e.source e.target = none ∧
        table.lookup? e.target e.source = none) ∧
        table.completeEntry e = table.insert e.source e.target e.shift := by
  unfold ConversionTable.completeEntry
  by_cases hcontains : table.contains e.source e.target = true
  · exact .inl ⟨hcontains, if_pos hcontains⟩
  · refine .inr ⟨?_, if_neg hcontains⟩
    rw [contains_iff, not_or, not_exists, ← Option.eq_none_iff_forall_ne_some] at hcontains
    exact ⟨hcontains.1, hcontains.2, h.lookup?_eq_none_comm hcontains.2⟩

theorem Consistent.lookup?_foldl_completeEntry (h : table.Consistent) (entries : List Conversion)
    (hshift : table.lookup? source target = some shift) :
    (entries.foldl ConversionTable.completeEntry table).lookup? source target = some shift := by
  induction entries generalizing table with
  | nil => exact hshift
  | cons e entries ih =>
    refine ih (h.completeEntry e) ?_
    rcases h.completeEntry_cases e with ⟨-, heq⟩ | ⟨⟨-, hnone, hnone'⟩, heq⟩
    · rw [heq, hshift]
    · rw [heq, lookup?_insert, if_neg, if_neg, hshift]
      · rintro ⟨rfl, rfl⟩
        simp [hnone'] at hshift
      · rintro ⟨rfl, rfl⟩
        simp [hnone] at hshift

theorem Consistent.contains_foldl_completeEntry (h : table.Consistent)
    {entries : List Conversion} {e : Conversion} (he : e ∈ entries) :
    (entries.foldl ConversionTable.completeEntry table).contains e.source e.target = true := by
  induction entries generalizing table with
  | nil => simp at he
  | cons e' entries ih =>
    rcases List.mem_cons.1 he with rfl | he
    · have hstep : (table.completeEntry e).contains e.source e.target = true := by
        rcases h.completeEntry_cases e with ⟨hcontains, heq⟩ | ⟨-, heq⟩
        · rw [heq, hcontains]
        · rw [heq, contains_iff, lookup?_insert, if_pos ⟨rfl, rfl⟩]
          exact .inr ⟨_, rfl⟩
      rcases (contains_iff _ _ _).1 hstep with heq | ⟨shift, hshift⟩
      · exact (contains_iff _ _ _).2 (.inl heq)
      · exact (contains_iff _ _ _).2
          (.inr ⟨shift, (h.completeEntry e).lookup?_foldl_completeEntry entries hshift⟩)
    · exact ih (h.completeEntry e') he

theorem Consistent.of_lookup?_foldl_completeEntry (h : table.Consistent) (ho : other.Consistent)
    {entries : List Conversion} (hsub : entries ⊆ other.entries)
    (hshift : (entries.foldl ConversionTable.completeEntry table).lookup? source target =
      some shift) :
    table.lookup? source target = some shift ∨
      source ≠ target ∧ other.lookup? source target = some shift := by
  induction entries generalizing table with
  | nil => exact .inl hshift
  | cons e entries ih =>
    obtain ⟨he, hrest⟩ := List.cons_subset.1 hsub
    rcases ih (h.completeEntry e) hrest hshift with hstep | hother
    · rcases h.completeEntry_cases e with ⟨-, heq⟩ | ⟨⟨hne, -⟩, heq⟩
      · exact .inl (heq ▸ hstep)
      · have hentry : other.lookup? e.source e.target = some e.shift := ho.mem_entries_iff.1 he
        rw [heq, lookup?_insert] at hstep
        split at hstep
        · rename_i hkey
          exact .inr ⟨hkey.1 ▸ hkey.2 ▸ hne, hkey.1 ▸ hkey.2 ▸ hstep ▸ hentry⟩
        · split at hstep
          · rename_i hkey
            refine .inr ⟨hkey.1 ▸ hkey.2 ▸ hne.symm, ?_⟩
            rw [hkey.1, hkey.2, ho.inverse _ _ hne, hentry]
            exact hstep
          · exact .inl hstep
    · exact .inr hother

/-- Completing a table adds the other table's shifts between different layers where there were
none, and nothing else. -/
theorem Consistent.lookup?_complete_iff (h : table.Consistent) (ho : other.Consistent) :
    (table.complete other).lookup? source target = some shift ↔
      table.lookup? source target = some shift ∨
        table.lookup? source target = none ∧ source ≠ target ∧
          other.lookup? source target = some shift := by
  rw [complete_eq_foldl]
  have horigin : ∀ s,
      (other.entries.foldl ConversionTable.completeEntry table).lookup? source target = some s →
        table.lookup? source target = some s ∨
          source ≠ target ∧ other.lookup? source target = some s :=
    fun s => h.of_lookup?_foldl_completeEntry ho (List.Subset.refl other.entries)
  constructor
  · intro hshift
    cases htable : table.lookup? source target with
    | some s =>
      rw [h.lookup?_foldl_completeEntry other.entries htable] at hshift
      exact .inl hshift
    | none =>
      rcases horigin shift hshift with hold | hnew
      · simp [htable] at hold
      · exact .inr ⟨rfl, hnew⟩
  · rintro (hold | ⟨hnone, hne, hnew⟩)
    · exact h.lookup?_foldl_completeEntry other.entries hold
    · have hcontains := h.contains_foldl_completeEntry (ho.mem_entries_iff.2 hnew)
      rcases (contains_iff _ _ _).1 hcontains with heq | ⟨s, hs⟩
      · exact absurd heq hne
      · rcases horigin s hs with hold | ⟨-, hother⟩
        · simp [hnone] at hold
        · rw [hs, ← hother, hnew]

end Complete

end ConversionTable
end LatticeKinetics
