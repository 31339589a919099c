import LatticeKinetics.Proofs.CoordinateGrammar
import LatticeKinetics.Proofs.FingerprintEncoding

/-! A coordinate is printed with three components and with its layer, whatever the dimension is.
Reading such a text drops the zeros of the axes that the lattice does not have, and what is left is
the coordinate. -/

namespace LatticeKinetics

namespace Text

/-! ### Printed integers -/

theorem digits_toDigits (n : Nat) : Digits (Nat.toDigits 10 n) :=
  ⟨Fortran.toDigits_ne_nil n, fun _ => Fortran.isNumeral_of_mem_toDigits⟩

theorem decimal_toDigits (n : Nat) : decimal (Nat.toDigits 10 n) = n := by
  rw [← ofDigitChars_eq_decimal, Nat.ofDigitChars_toDigits (by decide) (by decide)]

theorem numeral_toString (n : Int) : Numeral (toString n).toList n := by
  cases n with
  | ofNat n =>
    have hnumeral := Numeral.unsigned (digits_toDigits n)
    rw [decimal_toDigits, ← Fortran.toList_toString] at hnumeral
    exact hnumeral
  | negSucc n =>
    have hnumeral := Numeral.negative (digits_toDigits (n + 1))
    rw [decimal_toDigits, ← Fortran.toList_toString_negSucc] at hnumeral
    exact hnumeral

theorem comma_not_mem_toString (n : Int) : ',' ∉ (toString n).toList := by
  intro hmem
  rcases Fingerprint.mem_toString hmem with h | h
  · exact absurd h (by decide)
  · exact absurd h (by decide)

theorem not_isBlank_of_mem_toString {n : Int} {c : Char} (h : c ∈ (toString n).toList) :
    isBlank c = false := by
  rcases Fingerprint.mem_toString h with rfl | hnumeral
  · decide
  · by_contra hblank
    have hname :=
      Coordinate.isNameChar_eq_false_of_isBlank (Bool.eq_true_of_not_eq_false hblank)
    rw [Fortran.isNameChar_of_isNumeral hnumeral] at hname
    contradiction

theorem stops_of_forall {p : Char → Bool} {cs : List Char} (h : ∀ c ∈ cs, p c = false) :
    Stops p cs :=
  fun c hc => h c (List.mem_of_mem_head? hc)

theorem trimmed_toString {ws : List Char} (hws : Blanks ws) (n : Int) :
    Trimmed (ws ++ (toString n).toList) (toString n).toList := by
  refine ⟨ws, [], hws, blanks_nil, by rw [List.append_nil], ?_, ?_⟩
  · exact stops_of_forall fun _ => not_isBlank_of_mem_toString
  · exact stops_of_forall fun _ hc => not_isBlank_of_mem_toString (List.mem_reverse.1 hc)

end Text

namespace Coordinate

open Text

def components (c : Coordinate) : List Int :=
  [c.axis 0, c.axis 1, c.axis 2]

def printedBody (c : Coordinate) : List Char :=
  (toString (c.axis 0)).toList ++ ',' :: ' ' ::
    ((toString (c.axis 1)).toList ++ ',' :: ' ' :: (toString (c.axis 2)).toList)

/-- A coordinate of a lattice of the dimension, the numbers and names of which can be read. -/
structure Writable (dimension : Nat) (c : Coordinate) : Prop where
  offset : c.offset.length = dimension
  words : ∀ x ∈ c.offset, fitsWord32 x = true
  site : IsName c.site.toList
  layer : IsName c.layer.toList

variable {c : Coordinate} {dimension : Nat}

/-! ### Printing -/

theorem pieces_printedBody (c : Coordinate) :
    Pieces c.printedBody (c.components.map fun n => (toString n).toList) := by
  have hblank : Blanks [' '] := by
    intro b hb
    rw [List.mem_singleton.1 hb]
    decide
  have hcomma (n : Int) : ',' ∉ ' ' :: (toString n).toList :=
    List.not_mem_cons_of_ne_of_not_mem (by decide) (comma_not_mem_toString n)
  have hsplit : c.printedBody.splitOn ',' =
      [(toString (c.axis 0)).toList, ' ' :: (toString (c.axis 1)).toList,
        ' ' :: (toString (c.axis 2)).toList] := by
    unfold printedBody
    rw [List.splitOn_append_cons_self, List.splitOn_eq_singleton (comma_not_mem_toString _),
      ← List.cons_append, List.splitOn_append_cons_self, List.splitOn_eq_singleton (hcomma _),
      List.splitOn_eq_singleton (hcomma _)]
    rfl
  unfold Pieces
  rw [hsplit]
  exact .cons (trimmed_toString blanks_nil _) <| .cons (trimmed_toString hblank _) <|
    .cons (trimmed_toString hblank _) .nil

theorem not_paren_of_mem_printedBody {b : Char} (h : b ∈ c.printedBody) : b ≠ '(' ∧ b ≠ ')' := by
  have hnumber {n : Int} (hb : b ∈ (toString n).toList) : b ≠ '(' ∧ b ≠ ')' := by
    rcases Fingerprint.mem_toString hb with rfl | hnumeral
    · decide
    · constructor
      · rintro rfl
        exact absurd hnumeral (by decide)
      · rintro rfl
        exact absurd hnumeral (by decide)
  simp only [printedBody, List.mem_append, List.mem_cons] at h
  rcases h with h | rfl | rfl | h | rfl | rfl | h
  · exact hnumber h
  · decide
  · decide
  · exact hnumber h
  · decide
  · decide
  · exact hnumber h

theorem toList_render (c : Coordinate) : c.render.toList =
    c.site.toList ++ '.' :: '(' :: (c.printedBody ++ ')' :: '.' :: c.layer.toList) := by
  rw [Fingerprint.toList_render]
  simp only [printedBody, List.append_assoc, List.cons_append]

theorem spells_render (hsite : IsName c.site.toList) (hlayer : IsName c.layer.toList) :
    Spells c.render.toList ⟨c.site.toList, c.printedBody, some c.layer.toList⟩ := by
  rw [toList_render]
  have hrest : SpellsLayer ('.' :: c.layer.toList) (some c.layer.toList) := by
    have hpresent := SpellsLayer.present blanks_nil blanks_nil blanks_nil hlayer
    rwa [List.append_nil] at hpresent
  exact Spells.parts (s := ⟨c.site.toList, c.printedBody, some c.layer.toList⟩) blanks_nil
    blanks_nil blanks_nil hsite (fun _ => not_paren_of_mem_printedBody) hrest

theorem written_render (hsite : IsName c.site.toList) (hlayer : IsName c.layer.toList) :
    Written c.render ⟨c.site.toList, c.printedBody, some c.layer.toList⟩
      (c.components.map fun n => (toString n).toList) :=
  ⟨spells_render hsite hlayer, c.pieces_printedBody, by simp [components], by simp [components]⟩

/-! ### Reading what was printed -/

theorem getElem?_components {axis : Nat} {value : Int} (h : c.components[axis]? = some value) :
    value = c.axis axis := by
  obtain ⟨hlt, rfl⟩ := List.getElem?_eq_some_iff.1 h
  have haxis : axis = 0 ∨ axis = 1 ∨ axis = 2 := by
    simp only [components, List.length_cons, List.length_nil] at hlt
    omega
  rcases haxis with rfl | rfl | rfl <;> rfl

theorem axis_of_length_le {axis : Nat} (h : c.offset.length ≤ axis) : c.axis axis = 0 := by
  unfold Coordinate.axis
  rw [List.getD_eq_getElem?_getD, List.getElem?_eq_none h, Option.getD_none]

theorem take_components (hdimension : c.offset.length ≤ 3) :
    c.components.take c.offset.length = c.offset := by
  apply List.ext_getElem
  · simp [components, hdimension]
  · intro i hi hi'
    have hlt : i < c.components.length := Nat.lt_of_lt_of_le hi' hdimension
    rw [List.getElem_take, getElem?_components (List.getElem?_eq_getElem hlt), Coordinate.axis,
      List.getD_eq_getElem?_getD, List.getElem?_eq_getElem hi', Option.getD_some]

theorem Writable.fitsWord32_axis (h : c.Writable dimension) (axis : Nat) :
    fitsWord32 (c.axis axis) = true := by
  by_cases hlt : axis < c.offset.length
  · rw [Coordinate.axis, List.getD_eq_getElem?_getD, List.getElem?_eq_getElem hlt, Option.getD_some]
    exact h.words _ (List.getElem_mem hlt)
  · rw [axis_of_length_le (Nat.le_of_not_lt hlt)]
    decide

theorem Writable.word32_components (h : c.Writable dimension) :
    List.Forall₂ Word32 (c.components.map fun n => (toString n).toList) c.components := by
  have hword (axis : Nat) : Word32 (toString (c.axis axis)).toList (c.axis axis) := by
    have hfits := h.fitsWord32_axis axis
    simp only [fitsWord32, Bool.and_eq_true, decide_eq_true_eq] at hfits
    exact ⟨numeral_toString _, hfits⟩
  exact .cons (hword 0) <| .cons (hword 1) <| .cons (hword 2) .nil

theorem Writable.reads_render (h : c.Writable dimension) (hdimension : dimension ≤ 3)
    (defaultLayer : String) : Reads c.render dimension defaultLayer (.ok c) := by
  obtain ⟨rfl, -, hsite, hlayer⟩ := id h
  have hbeyond : ∀ axis value, c.components[axis]? = some value → c.offset.length ≤ axis →
      value = 0 :=
    fun axis value hvalue hle => (getElem?_components hvalue).trans (axis_of_length_le hle)
  have hreads : Reads c.render c.offset.length defaultLayer _ :=
    .coordinate (written_render hsite hlayer) h.word32_components hbeyond
  have hfilled : filled c.components = c.components := List.append_nil _
  rw [hfilled, take_components hdimension] at hreads
  simpa using hreads

/-! ### What reading gives -/

theorem SpellsLayer.isName {cs name : List Char} {layer : Option (List Char)}
    (h : SpellsLayer cs layer) (hname : layer = some name) : IsName name := by
  cases h with
  | absent => contradiction
  | present _ _ _ hlayer => exact Option.some.inj hname ▸ hlayer

theorem Spells.isName {cs : List Char} {s : Shape} (h : Spells cs s) :
    IsName s.site ∧ ∀ name, s.layer = some name → IsName name := by
  obtain ⟨-, -, -, hsite, -, hlayer⟩ := h
  exact ⟨hsite, fun _ => hlayer.isName⟩

theorem fitsWord32_of_mem_filled {ps : List (List Char)} {values : List Int}
    (h : List.Forall₂ Word32 ps values) {x : Int} (hx : x ∈ filled values) :
    fitsWord32 x = true := by
  rcases List.mem_append.1 hx with hx | hx
  · obtain ⟨p, -, -, hbounds⟩ := forall₂_mem h hx
    simp only [fitsWord32, Bool.and_eq_true, decide_eq_true_eq]
    exact hbounds
  · rw [List.eq_of_mem_replicate hx]
    decide

theorem length_filled {ps : List (List Char)} {values : List Int}
    (h : List.Forall₂ Word32 ps values) (hcount : ps.length ≤ 3) : (filled values).length = 3 := by
  have hlength := h.length_eq
  unfold filled
  rw [List.length_append, List.length_replicate]
  omega

theorem reads_of_parse_eq_ok {input defaultLayer : String}
    (h : parse input dimension defaultLayer = .ok c) :
    Reads input dimension defaultLayer (.ok c) := by
  by_cases hwritten : ∃ s ps, Written input s ps
  · obtain ⟨s, ps, hwritten⟩ := hwritten
    exact h ▸ reads_of_written hwritten
  · rw [parse_of_not_written fun s ps hs => hwritten ⟨s, ps, hs⟩] at h
    contradiction

theorem writable_of_parse_eq_ok (hdimension : dimension ≤ 3) {input defaultLayer : String}
    (hlayer : IsName defaultLayer.toList) (h : parse input dimension defaultLayer = .ok c) :
    c.Writable dimension := by
  cases reads_of_parse_eq_ok h with
  | @coordinate s ps values hwritten hvalues hzero =>
    obtain ⟨hsite, hname⟩ := hwritten.shape.isName
    refine ⟨?_, ?_, ?_, ?_⟩
    -- Three components are read, and those beyond the dimension are dropped.
    · rw [List.length_take, length_filled hvalues hwritten.count.2]
      exact Nat.min_eq_left hdimension
    · exact fun x hx => fitsWord32_of_mem_filled hvalues (List.mem_of_mem_take hx)
    · simpa using hsite
    · cases hlayer : s.layer with
      | none => assumption
      | some name => simpa using hname name hlayer

/-- What is printed is read as the coordinate it was printed from, whichever layer is the default.
In particular a coordinate that was read is read again from its printed text. -/
theorem parse_render_gives_coordinate_back {dimension : Nat} (hdimension : dimension ≤ 3) :
    (∀ c : Coordinate, c.Writable dimension → ∀ defaultLayer,
      parse c.render dimension defaultLayer = .ok c) ∧
    ∀ input defaultLayer c, IsName defaultLayer.toList →
      parse input dimension defaultLayer = .ok c →
      ∀ other, parse c.render dimension other = .ok c := by
  have hprinted (c : Coordinate) (hc : c.Writable dimension) (defaultLayer : String) :
      parse c.render dimension defaultLayer = .ok c :=
    (hc.reads_render hdimension defaultLayer).parse_eq
  refine ⟨hprinted, ?_⟩
  intro input defaultLayer c hlayer hread
  exact hprinted c (writable_of_parse_eq_ok hdimension hlayer hread)

/-- The least and the largest component there are, and a text with blanks and a sign to spare. -/
theorem parse_render_of_extreme_components :
    parse "_cus2.(-2147483648, 2147483647, 0).Ruo2" 2 "other" =
        .ok ⟨[-2147483648, 2147483647], "_cus2", "Ruo2"⟩ ∧
      parse " a . ( +007 ) " 2 "default" = .ok ⟨[7, 0], "a", "default"⟩ ∧
      parse "a.(7, 0, 0).default" 2 "other" = .ok ⟨[7, 0], "a", "default"⟩ := by
  obtain ⟨hprinted, hread⟩ := parse_render_gives_coordinate_back (show 2 ≤ 3 by decide)
  have hwritable : Writable 2 ⟨[-2147483648, 2147483647], "_cus2", "Ruo2"⟩ :=
    ⟨rfl, by decide, ⟨_, _, rfl, by decide, List.all_eq_true.1 (by decide)⟩,
      ⟨_, _, rfl, by decide, List.all_eq_true.1 (by decide)⟩⟩
  have hloose : parse " a . ( +007 ) " 2 "default" = .ok ⟨[7, 0], "a", "default"⟩ := by decide
  exact ⟨hprinted _ hwritable "other", hloose,
    hread _ _ _ ⟨_, _, rfl, by decide, List.all_eq_true.1 (by decide)⟩ hloose "other"⟩

end Coordinate
end LatticeKinetics
