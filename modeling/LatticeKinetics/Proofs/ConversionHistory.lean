import Mathlib.Data.List.Induction
import LatticeKinetics.Proofs.Compilation
import LatticeKinetics.Proofs.WellFormedDrafts

/-! What a conversion table answers after any history of registrations. For two layers the last
registration of the pair counts, turned round where it was given the other way. Hence two
coordinates see each other at opposite offsets or not at all. Sharing a unit cell fills in the pairs
that were never registered and leaves the others as they are. -/

namespace LatticeKinetics

namespace Conversion

def Joins (c : Conversion) (a b : String) : Prop :=
  c.source = a ∧ c.target = b ∨ c.source = b ∧ c.target = a

instance (c : Conversion) (a b : String) : Decidable (c.Joins a b) :=
  inferInstanceAs (Decidable (_ ∨ _))

def shiftFrom (c : Conversion) (source : String) : List Int :=
  if c.source = source then c.shift else c.shift.map (- ·)

end Conversion

namespace ConversionTable

def ofHistory (history : List Conversion) : ConversionTable :=
  history.foldl (fun table c => table.insert c.source c.target c.shift) empty

def last? (history : List Conversion) (a b : String) : Option Conversion :=
  history.reverse.find? fun c => c.Joins a b

/-- What a table answers that was built by the given registrations. -/
structure Remembers (table : ConversionTable) (history : List Conversion) : Prop where
  shift : ∀ source target, source ≠ target → table.shift source target =
    match last? history source target with
    | some c => .ok (c.shiftFrom source)
    | none => .error ⟨source, target⟩
  contains : ∀ source target,
    table.contains source target = true ↔ ∃ shift, table.shift source target = .ok shift
  bothWays : ∀ a b : Coordinate,
    (∃ seen, a.relativeTo b table = .ok seen) ↔ ∃ seen, b.relativeTo a table = .ok seen
  opposite : ∀ (a b : Coordinate) seen back, a.relativeTo b table = .ok seen →
    b.relativeTo a table = .ok back → back.offset = seen.offset.map (- ·)
  length : ∀ d ≤ 3, (∀ c ∈ history, c.shift.length = d) → ∀ (a b : Coordinate) seen,
    a.offset.length = d → b.offset.length = d → a.relativeTo b table = .ok seen →
      seen.offset.length = d

variable {table : ConversionTable} {source target : String} {history : List Conversion}

theorem ofHistory_concat (history : List Conversion) (c : Conversion) :
    ofHistory (history ++ [c]) = (ofHistory history).insert c.source c.target c.shift := by
  simp [ofHistory]

theorem last?_concat (history : List Conversion) (c : Conversion) (a b : String) :
    last? (history ++ [c]) a b = if c.Joins a b then some c else last? history a b := by
  unfold last?
  rw [List.reverse_append, List.reverse_singleton, List.singleton_append, List.find?_cons]
  by_cases hjoins : c.Joins a b <;> simp [hjoins]

theorem consistent_ofHistory (history : List Conversion) : (ofHistory history).Consistent := by
  induction history using List.reverseRecOn with
  | nil => exact consistent_empty
  | append_singleton history c ih =>
    rw [ofHistory_concat]
    exact ih.insert _ _ _

theorem lookup?_ofHistory (history : List Conversion) (hne : source ≠ target) :
    (ofHistory history).lookup? source target =
      (last? history source target).map (·.shiftFrom source) := by
  induction history using List.reverseRecOn with
  | nil => rfl
  | append_singleton history c ih =>
    rw [ofHistory_concat, last?_concat, lookup?_insert]
    by_cases hsame : source = c.source ∧ target = c.target
    · obtain ⟨rfl, rfl⟩ := hsame
      simp [Conversion.Joins, Conversion.shiftFrom]
    · by_cases hback : source = c.target ∧ target = c.source
      · obtain ⟨rfl, rfl⟩ := hback
        simp [Conversion.Joins, Conversion.shiftFrom, hne, hne.symm]
      · have hjoins : ¬c.Joins source target := by
          rintro (⟨rfl, rfl⟩ | ⟨rfl, rfl⟩)
          · exact hsame ⟨rfl, rfl⟩
          · exact hback ⟨rfl, rfl⟩
        rw [if_neg hsame, if_neg hback, if_neg hjoins, ih]

theorem shift_of_ne (table : ConversionTable) (hne : source ≠ target) :
    table.shift source target =
      match table.lookup? source target with
      | some s => .ok s
      | none => .error ⟨source, target⟩ :=
  if_neg hne

theorem shift_ofHistory (history : List Conversion) (hne : source ≠ target) :
    (ofHistory history).shift source target =
      match last? history source target with
      | some c => .ok (c.shiftFrom source)
      | none => .error ⟨source, target⟩ := by
  rw [shift_of_ne _ hne, lookup?_ofHistory history hne]
  cases last? history source target <;> rfl

theorem contains_iff_shift (table : ConversionTable) (source target : String) :
    table.contains source target = true ↔ ∃ shift, table.shift source target = .ok shift := by
  refine ⟨exists_shift_eq_ok, ?_⟩
  rintro ⟨s, hs⟩
  rw [contains_iff]
  by_cases hsame : source = target
  · exact .inl hsame
  · rw [shift_of_ne _ hsame] at hs
    cases hlookup : table.lookup? source target with
    | some s => exact .inr ⟨s, rfl⟩
    | none => simp [hlookup] at hs

theorem Consistent.shift_swap (h : table.Consistent) {s : List Int}
    (hs : table.shift source target = .ok s) : table.shift target source = .ok (s.map (- ·)) := by
  by_cases hsame : source = target
  · subst hsame
    have hzero : s = [0, 0, 0] := by simpa [shift] using hs.symm
    rw [hs, hzero]
    rfl
  · rw [shift_of_ne _ hsame] at hs
    rw [shift_of_ne _ (Ne.symm hsame), h.inverse _ _ hsame]
    cases hlookup : table.lookup? source target with
    | some s' =>
      obtain rfl : s' = s := by simpa [hlookup] using hs
      rfl
    | none => simp [hlookup] at hs

private theorem map_neg_zipWith (xs ys ss : List Int) :
    (List.zipWith (· + ·) (List.zipWith (· - ·) xs ys) ss).map (- ·) =
      List.zipWith (· + ·) (List.zipWith (· - ·) ys xs) (ss.map (- ·)) := by
  induction xs generalizing ys ss with
  | nil => cases ys <;> rfl
  | cons x xs ih =>
    cases ys with
    | nil => rfl
    | cons y ys =>
      cases ss with
      | nil => rfl
      | cons s ss =>
        simp only [List.zipWith_cons_cons, List.map_cons, ih, List.cons.injEq, and_true]
        omega

theorem Consistent.relativeTo_swap (h : table.Consistent) {a b seen : Coordinate}
    (hseen : a.relativeTo b table = .ok seen) :
    b.relativeTo a table = .ok (b.withOffset (seen.offset.map (- ·))) := by
  obtain ⟨s, hs, rfl⟩ := Coordinate.relativeTo_eq_ok hseen
  unfold Coordinate.relativeTo
  simp only [bind_eq_ok_iff, pure_eq_ok_iff]
  refine ⟨_, h.shift_swap hs, ?_⟩
  rw [← map_neg_zipWith]
  rfl

theorem length_shift_ofHistory {d : Nat} (hd : d ≤ 3) (h : ∀ c ∈ history, c.shift.length = d)
    {s : List Int} (hs : (ofHistory history).shift source target = .ok s) : d ≤ s.length := by
  by_cases hsame : source = target
  · have hzero : s = [0, 0, 0] := by simpa [shift, hsame] using hs.symm
    simpa [hzero] using hd
  · rw [shift_ofHistory history hsame] at hs
    cases hlast : last? history source target with
    | none => simp [hlast] at hs
    | some c =>
      have hmem := h c (List.mem_reverse.1 (List.mem_of_find?_eq_some hlast))
      obtain rfl : c.shiftFrom source = s := by simpa [hlast] using hs
      have hlength : (c.shiftFrom source).length = c.shift.length := by
        unfold Conversion.shiftFrom
        split
        · rfl
        · exact List.length_map _
      omega

theorem remembers_ofHistory (history : List Conversion) :
    (ofHistory history).Remembers history := by
  have hconsistent := consistent_ofHistory history
  refine ⟨fun _ _ hne => shift_ofHistory history hne, contains_iff_shift _, ?_, ?_, ?_⟩
  · intro a b
    exact ⟨fun ⟨_, h⟩ => ⟨_, hconsistent.relativeTo_swap h⟩,
      fun ⟨_, h⟩ => ⟨_, hconsistent.relativeTo_swap h⟩⟩
  · intro a b seen back hseen hback
    rw [hconsistent.relativeTo_swap hseen] at hback
    rw [← Except.ok.inj hback]
    rfl
  · intro d hd hlength a b seen ha hb hseen
    obtain ⟨s, hs, rfl⟩ := Coordinate.relativeTo_eq_ok hseen
    have hs := length_shift_ofHistory hd hlength hs
    simp only [Coordinate.withOffset, List.length_zipWith]
    omega

end ConversionTable

def Declaration.conversion? : Declaration → Option Conversion
  | .conversion source target shift => some ⟨source, target, shift⟩
  | _ => none

namespace Draft

theorem ofDeclarations_concat (dimension : Nat) (declarations : List Declaration)
    (declaration : Declaration) :
    ofDeclarations dimension (declarations ++ [declaration]) =
      (ofDeclarations dimension declarations).declare declaration := by
  simp [ofDeclarations]

theorem conversions_ofDeclarations (dimension : Nat) (declarations : List Declaration) :
    (ofDeclarations dimension declarations).conversions =
      ConversionTable.ofHistory (declarations.filterMap Declaration.conversion?) := by
  induction declarations using List.reverseRecOn with
  | nil => rfl
  | append_singleton declarations declaration ih =>
    rw [ofDeclarations_concat, List.filterMap_append]
    cases declaration with
    | conversion source target shift =>
      change _ = ConversionTable.ofHistory (_ ++ [⟨source, target, shift⟩])
      rw [ConversionTable.ofHistory_concat, ← ih]
      rfl
    | _ => exact ih.trans (congrArg _ (List.append_nil _).symm)

theorem sharedUnitCell_ofDeclarations (dimension : Nat) {declarations : List Declaration}
    (h : Declaration.sharedUnitCell ∈ declarations) :
    (ofDeclarations dimension declarations).sharedUnitCell = true := by
  induction declarations using List.reverseRecOn with
  | nil => exact absurd h List.not_mem_nil
  | append_singleton declarations declaration ih =>
    rw [ofDeclarations_concat]
    cases declaration with
    | sharedUnitCell => rfl
    | _ => exact ih (by simpa using h)

theorem exists_assembled {d : Draft} {m : Model} (h : d.build = .ok m) :
    ∃ name, d.assembled name = m := by
  unfold build at h
  simp only [bind_eq_ok_iff, assemble_eq_ok_iff, pure_eq_ok_iff] at h
  obtain ⟨_, ⟨-, name, -, rfl⟩, _, -, rfl⟩ := h
  exact ⟨name, rfl⟩

end Draft

/-- What the table of a model answers whose layers share their unit cell, after the given
registrations. -/
structure Model.SharesUnitCell (m : Model) (history : List Conversion) : Prop where
  convertible : ∀ a ∈ m.layers.map (·.name), ∀ b ∈ m.layers.map (·.name),
    ∃ shift, m.conversions.shift a b = .ok shift
  zero : ∀ a ∈ m.layers.map (·.name), ∀ b ∈ m.layers.map (·.name), a ≠ b →
    ConversionTable.last? history a b = none →
      m.conversions.shift a b = .ok (List.replicate m.dimension 0)
  kept : ∀ a b c, a ≠ b → ConversionTable.last? history a b = some c →
    m.conversions.shift a b = .ok (c.shiftFrom a)
  entries : (ConversionTable.ofHistory history).entries ⊆ m.conversions.entries

theorem Draft.sharesUnitCell_of_build {dimension : Nat} {declarations : List Declaration}
    {m : Model} (hm : (Draft.ofDeclarations dimension declarations).build = .ok m)
    (hshared : .sharedUnitCell ∈ declarations) :
    m.SharesUnitCell (declarations.filterMap Declaration.conversion?) := by
  have hconsistent := consistent_ofDeclarations dimension declarations
  have hflag := sharedUnitCell_ofDeclarations dimension hshared
  have htable := conversions_ofDeclarations dimension declarations
  obtain ⟨name, rfl⟩ := exists_assembled hm
  generalize declarations.filterMap Declaration.conversion? = history at htable ⊢
  generalize ofDeclarations dimension declarations = d at *
  have hshift {a b : String} {s : List Int} (hne : a ≠ b) (h : d.Converts a b s) :
      d.finalConversions.shift a b = .ok s := by
    rw [ConversionTable.shift_of_ne _ hne, (lookup?_finalConversions_iff hconsistent).2 h]
  have hlookup {a b : String} (hne : a ≠ b) : d.conversions.lookup? a b =
      (ConversionTable.last? history a b).map (·.shiftFrom a) := by
    rw [htable, ConversionTable.lookup?_ofHistory history hne]
  have hzero : ∀ a ∈ d.layers.map (·.name), ∀ b ∈ d.layers.map (·.name), a ≠ b →
      ConversionTable.last? history a b = none →
        d.finalConversions.shift a b = .ok (List.replicate d.dimension 0) := by
    intro a ha b hb hne hnone
    refine hshift hne (.inr ⟨?_, hflag, hne, ⟨List.mem_map.1 ha, List.mem_map.1 hb⟩, rfl⟩)
    rw [hlookup hne, hnone]
    rfl
  have hkept : ∀ a b c, a ≠ b → ConversionTable.last? history a b = some c →
      d.finalConversions.shift a b = .ok (c.shiftFrom a) := by
    intro a b c hne hlast
    apply hshift hne
    left
    rw [hlookup hne, hlast]
    rfl
  refine ⟨?_, hzero, hkept, ?_⟩
  · intro a ha b hb
    by_cases hsame : a = b
    · exact ⟨_, if_pos hsame⟩
    · cases hlast : ConversionTable.last? history a b with
      | none => exact ⟨_, hzero a ha b hb hsame hlast⟩
      | some c => exact ⟨_, hkept a b c hsame hlast⟩
  · intro e he
    apply (consistent_finalConversions hconsistent).mem_entries_iff.2
    apply (lookup?_finalConversions_iff hconsistent).2
    left
    rw [htable]
    exact (ConversionTable.consistent_ofHistory history).mem_entries_iff.1 he

/-- After any registrations, in any order and with any layers, a table answers with the last one
for a pair or its inverse, so two coordinates see each other at opposite offsets or not at all. In
a model whose layers share their unit cell every two of them can be converted: with no shift where
none was registered, and as registered otherwise. -/
theorem conversions_invert_after_any_history :
    (∀ history, (ConversionTable.ofHistory history).Remembers history) ∧
    ∀ dimension declarations m, (Draft.ofDeclarations dimension declarations).build = .ok m →
      Declaration.sharedUnitCell ∈ declarations →
        m.SharesUnitCell (declarations.filterMap Declaration.conversion?) :=
  ⟨ConversionTable.remembers_ofHistory, fun _ _ _ => Draft.sharesUnitCell_of_build⟩

def threeLayers : List Declaration :=
  [.species "empty", .layer { name := "a", sites := [{ name := "s" }] },
    .layer { name := "b", sites := [{ name := "s" }] },
    .layer { name := "c", sites := [{ name := "s" }] },
    .conversion "a" "b" [1], .sharedUnitCell, .conversion "b" "a" [5]]

/-- The second registration of a pair is given the other way round. -/
theorem conversions_invert_among_three_layers :
    ∃ m, (Draft.ofDeclarations 1 threeLayers).build = .ok m ∧
      m.conversions.shift "a" "b" = .ok [-5] ∧ m.conversions.shift "c" "b" = .ok [0] ∧
      ∃ seen back : Coordinate,
        (Coordinate.mk [3] "s" "a").relativeTo ⟨[1], "s", "b"⟩
          (ConversionTable.ofHistory [⟨"a", "b", [1]⟩, ⟨"b", "a", [5]⟩]) = .ok seen ∧
        (Coordinate.mk [1] "s" "b").relativeTo ⟨[3], "s", "a"⟩
          (ConversionTable.ofHistory [⟨"a", "b", [1]⟩, ⟨"b", "a", [5]⟩]) = .ok back ∧
        seen.offset = [-3] ∧ back.offset = [3] := by
  have hbuild : (Draft.ofDeclarations 1 threeLayers).build.toOption.isSome = true := by
    decide +kernel
  obtain ⟨m, hm⟩ := Option.isSome_iff_exists.1 hbuild
  have hm := toOption_eq_some_iff.1 hm
  have hlayers : m.layers.map (·.name) = ["a", "b", "c"] ∧ m.dimension = 1 := by
    obtain ⟨name, rfl⟩ := Draft.exists_assembled hm
    exact ⟨rfl, rfl⟩
  obtain ⟨hremembers, hshares⟩ := conversions_invert_after_any_history
  have hshares := hshares 1 threeLayers m hm (by simp [threeLayers])
  have hzero := hshares.zero "c" (by simp [hlayers]) "b" (by simp [hlayers]) (by decide) (by decide)
  rw [hlayers.2] at hzero
  have hremembers := hremembers [⟨"a", "b", [1]⟩, ⟨"b", "a", [5]⟩]
  have hseen : (Coordinate.mk [3] "s" "a").relativeTo ⟨[1], "s", "b"⟩
      (ConversionTable.ofHistory [⟨"a", "b", [1]⟩, ⟨"b", "a", [5]⟩]) = .ok ⟨[-3], "s", "a"⟩ := by
    decide
  obtain ⟨back, hback⟩ := (hremembers.bothWays _ _).1 ⟨_, hseen⟩
  exact ⟨m, hm, hshares.kept "a" "b" ⟨"b", "a", [5]⟩ (by decide) (by decide), hzero, _, back,
    hseen, hback, rfl, hremembers.opposite _ _ _ _ hseen hback⟩

end LatticeKinetics
