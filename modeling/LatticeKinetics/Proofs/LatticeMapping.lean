import LatticeKinetics.Lattice.Mapping
import LatticeKinetics.Proofs.Outcome

/-! The numbering of sites and going from one site to another. Both directions of the numbering undo
each other up to wrapping around, and steps can be taken one after the other or all at once. -/

namespace LatticeKinetics

@[ext] theorem Triple.ext_get {α : Type} {s t : Triple α} (h : ∀ axis, s.get axis = t.get axis) :
    s = t := by
  obtain ⟨sx, sy, sz⟩ := s
  obtain ⟨tx, ty, tz⟩ := t
  have hx : sx = tx := h .x
  have hy : sy = ty := h .y
  have hz : sz = tz := h .z
  rw [hx, hy, hz]

@[simp] theorem Cell.get_shift (cell : Cell) (offset : List Int) (axis : Axis) :
    (cell.shift offset).get axis = cell.get axis + offset.getD axis.number 0 := by
  simp [Cell.shift]

@[simp] theorem Cell.shift_replicate_zero (cell : Cell) (n : Nat) :
    cell.shift (List.replicate n 0) = cell := by
  apply Triple.ext_get
  intro axis
  rw [Cell.get_shift, List.getD_eq_getElem?_getD, List.getElem?_replicate]
  split <;> simp

namespace Mapping

/-- What is true of every mapping that is accepted. -/
structure Valid (m : Mapping) : Prop where
  dimension : 1 ≤ m.dimension ∧ m.dimension ≤ 3
  sitesPerCell : 0 < m.sitesPerCell
  positive : ∀ axis, 0 < m.extents.get axis
  bounded : ∀ axis, m.extents.get axis ≤ maxExtent
  collapsed : ∀ axis : Axis, m.dimension ≤ axis.number → m.extents.get axis = 1
  volume : m.volume < volumeBound

theorem checkExtents_eq_ok {dimension start : Nat} {extents : List Nat}
    (h : checkExtents dimension start extents = .ok ()) {i extent : Nat}
    (hi : extents[i]? = some extent) : checkExtent dimension (start + i) extent = .ok () := by
  induction extents generalizing start i with
  | nil => simp at hi
  | cons e es ih =>
    unfold checkExtents at h
    obtain ⟨⟨⟩, he, hes⟩ := bind_eq_ok_iff.1 h
    cases i with
    | zero =>
      obtain rfl : e = extent := by simpa using hi
      exact he
    | succ i =>
      rw [show start + (i + 1) = start + 1 + i by omega]
      exact ih hes (by simpa using hi)

theorem checkExtent_eq_ok {dimension axis extent : Nat}
    (h : checkExtent dimension axis extent = .ok ()) :
    0 < extent ∧ (dimension ≤ axis → extent = 1) ∧ extent ≤ maxExtent := by
  unfold checkExtent at h
  simp only [ite_error_eq_ok_iff, and_true] at h
  omega

theorem checkCell_eq_ok {dimension sitesPerCell : Nat}
    (h : checkCell dimension sitesPerCell = .ok ()) :
    (1 ≤ dimension ∧ dimension ≤ 3) ∧ 0 < sitesPerCell := by
  unfold checkCell at h
  simp only [ite_error_eq_ok_iff, and_true] at h
  omega

theorem ofExtents_eq_ok {dimension sitesPerCell : Nat} {extents : List Nat} {m : Mapping}
    (h : ofExtents dimension sitesPerCell extents = .ok m) :
    m.Valid ∧ m.dimension = dimension ∧ m.sitesPerCell = sitesPerCell := by
  unfold ofExtents at h
  obtain ⟨⟨⟩, hcell, h⟩ := bind_eq_ok_iff.1 h
  split at h
  · simp at h
  · obtain ⟨⟨⟩, hextents, h⟩ := bind_eq_ok_iff.1 h
    dsimp only at h
    split at h
    · rename_i hvolume
      obtain rfl := pure_eq_ok_iff.1 h
      have hextent (axis : Axis) : 0 < extents.getD axis.number 1 ∧
          (dimension ≤ axis.number → extents.getD axis.number 1 = 1) ∧
          extents.getD axis.number 1 ≤ maxExtent := by
        rw [List.getD_eq_getElem?_getD]
        cases he : extents[axis.number]? with
        | none => simp [maxExtent]
        | some extent =>
          have hok := checkExtents_eq_ok hextents he
          rw [Nat.zero_add] at hok
          exact checkExtent_eq_ok hok
      obtain ⟨hd, hs⟩ := checkCell_eq_ok hcell
      refine ⟨⟨hd, hs, ?_, ?_, ?_, hvolume⟩, rfl, rfl⟩
      · intro axis
        simpa [Triple.ofList] using (hextent axis).1
      · intro axis
        simpa [Triple.ofList] using (hextent axis).2.2
      · intro axis haxis
        simpa [Triple.ofList] using (hextent axis).2.1 haxis
    · simp at h

variable {m : Mapping}

@[simp] theorem get_wrap (m : Mapping) (cell : Cell) (axis : Axis) :
    (m.wrap cell).get axis = cell.get axis % (m.extents.get axis : Int) := by
  simp [wrap]

theorem wrap_bounds (h : m.Valid) (cell : Cell) (axis : Axis) :
    0 ≤ (m.wrap cell).get axis ∧ (m.wrap cell).get axis < m.extents.get axis := by
  have hpos : 0 < (m.extents.get axis : Int) := by exact_mod_cast h.positive axis
  rw [get_wrap]
  exact ⟨Int.emod_nonneg _ (by omega), Int.emod_lt_of_pos _ hpos⟩

@[simp] theorem wrap_wrap (m : Mapping) (cell : Cell) : m.wrap (m.wrap cell) = m.wrap cell := by
  apply Triple.ext_get
  intro axis
  simp

theorem wrap_shift_wrap (m : Mapping) (cell : Cell) (offset : List Int) :
    m.wrap ((m.wrap cell).shift offset) = m.wrap (cell.shift offset) := by
  apply Triple.ext_get
  intro axis
  simp

private theorem digit_lt {n k a b : Nat} (ha : a < n) (hb : b < k) : a + n * b < n * k := by
  calc a + n * b < n + n * b := by omega
    _ = n * (b + 1) := by rw [Nat.mul_succ, Nat.add_comm]
    _ ≤ n * k := Nat.mul_le_mul_left _ (by omega)

theorem cellNumber_lt (h : m.Valid) (cell : Cell) : m.cellNumber cell < m.cellCount := by
  have hx := wrap_bounds h cell .x
  have hy := wrap_bounds h cell .y
  have hz := wrap_bounds h cell .z
  simp only [Triple.get] at hx hy hz
  unfold cellNumber cellCount
  dsimp only
  rw [Nat.mul_assoc]
  exact digit_lt (by omega) (digit_lt (by omega) (by omega))

theorem cellAt_cellNumber (h : m.Valid) (cell : Cell) :
    m.cellAt (m.cellNumber cell) = m.wrap cell := by
  have hx := wrap_bounds h cell .x
  have hy := wrap_bounds h cell .y
  have hz := wrap_bounds h cell .z
  simp only [Triple.get] at hx hy hz
  have hdivx : m.cellNumber cell / m.extents.x =
      (m.wrap cell).y.toNat + m.extents.y * (m.wrap cell).z.toNat := by
    unfold cellNumber
    dsimp only
    rw [Nat.add_mul_div_left _ _ (by omega), Nat.div_eq_of_lt (by omega), Nat.zero_add]
  have hdivxy : m.cellNumber cell / (m.extents.x * m.extents.y) = (m.wrap cell).z.toNat := by
    rw [← Nat.div_div_eq_div_mul, hdivx, Nat.add_mul_div_left _ _ (by omega),
      Nat.div_eq_of_lt (by omega), Nat.zero_add]
  have hmodx : m.cellNumber cell % m.extents.x = (m.wrap cell).x.toNat := by
    unfold cellNumber
    dsimp only
    rw [Nat.add_mul_mod_self_left, Nat.mod_eq_of_lt (by omega)]
  have hmody : m.cellNumber cell / m.extents.x % m.extents.y = (m.wrap cell).y.toNat := by
    rw [hdivx, Nat.add_mul_mod_self_left, Nat.mod_eq_of_lt (by omega)]
  apply Triple.ext_get
  intro axis
  cases axis with
  | x =>
    change ((m.cellNumber cell % m.extents.x : Nat) : Int) = (m.wrap cell).x
    rw [hmodx, Int.toNat_of_nonneg hx.1]
  | y =>
    change ((m.cellNumber cell / m.extents.x % m.extents.y : Nat) : Int) = (m.wrap cell).y
    rw [hmody, Int.toNat_of_nonneg hy.1]
  | z =>
    change ((m.cellNumber cell / (m.extents.x * m.extents.y) : Nat) : Int) = (m.wrap cell).z
    rw [hdivxy, Int.toNat_of_nonneg hz.1]

theorem wrap_cellAt (h : m.Valid) {number : Nat} (hn : number < m.cellCount) :
    m.wrap (m.cellAt number) = m.cellAt number := by
  have hx := h.positive .x
  have hy := h.positive .y
  simp only [Triple.get] at hx hy
  have hz : number / (m.extents.x * m.extents.y) < m.extents.z := by
    apply Nat.div_lt_of_lt_mul
    unfold cellCount at hn
    exact hn
  apply Triple.ext_get
  intro axis
  rw [get_wrap]
  cases axis <;> simp only [Triple.get, cellAt]
  · exact_mod_cast Nat.mod_eq_of_lt (Nat.mod_lt number hx)
  · exact_mod_cast Nat.mod_eq_of_lt (Nat.mod_lt (number / m.extents.x) hy)
  · exact_mod_cast Nat.mod_eq_of_lt hz

theorem cellNumber_cellAt (h : m.Valid) {number : Nat} (hn : number < m.cellCount) :
    m.cellNumber (m.cellAt number) = number := by
  unfold cellNumber
  rw [wrap_cellAt h hn]
  unfold cellAt
  simp only [Int.toNat_natCast]
  rw [← Nat.div_div_eq_div_mul, Nat.mod_add_div, Nat.mod_add_div]

theorem siteAt_eq_ok_iff {index : Nat} {site : LatticeSite} :
    m.siteAt index = .ok site ↔ (1 ≤ index ∧ index ≤ m.volume) ∧
      site = ⟨m.cellAt ((index - 1) / m.sitesPerCell), (index - 1) % m.sitesPerCell + 1⟩ := by
  unfold siteAt
  simp only [ite_error_eq_ok_iff, Except.ok.injEq, not_or, Nat.not_lt]
  constructor
  · rintro ⟨⟨h0, hv⟩, rfl⟩
    exact ⟨⟨by omega, hv⟩, rfl⟩
  · rintro ⟨⟨h1, hv⟩, rfl⟩
    exact ⟨⟨by omega, hv⟩, rfl⟩

theorem toIndex_eq_ok_iff {site : LatticeSite} {index : Nat} :
    m.toIndex site = .ok index ↔ (1 ≤ site.slot ∧ site.slot ≤ m.sitesPerCell) ∧
      index = m.sitesPerCell * m.cellNumber site.cell + site.slot := by
  unfold toIndex
  simp only [ite_error_eq_ok_iff, Except.ok.injEq, not_or, Nat.not_lt]
  constructor
  · rintro ⟨⟨h0, hs⟩, rfl⟩
    exact ⟨⟨by omega, hs⟩, rfl⟩
  · rintro ⟨⟨h1, hs⟩, rfl⟩
    exact ⟨⟨by omega, hs⟩, rfl⟩

theorem toIndex_wrap (m : Mapping) (cell : Cell) (slot : Nat) :
    m.toIndex ⟨m.wrap cell, slot⟩ = m.toIndex ⟨cell, slot⟩ := by
  unfold toIndex cellNumber
  rw [wrap_wrap]

theorem siteAt_of_toIndex (h : m.Valid) {site : LatticeSite} {index : Nat}
    (hi : m.toIndex site = .ok index) :
    m.siteAt index = .ok ⟨m.wrap site.cell, site.slot⟩ := by
  obtain ⟨⟨hlow, hhigh⟩, rfl⟩ := toIndex_eq_ok_iff.1 hi
  have hcell := cellNumber_lt h site.cell
  have hpred : m.sitesPerCell * m.cellNumber site.cell + site.slot - 1 =
      (site.slot - 1) + m.sitesPerCell * m.cellNumber site.cell := by omega
  rw [siteAt_eq_ok_iff, hpred, Nat.add_mul_div_left _ _ h.sitesPerCell,
    Nat.div_eq_of_lt (by omega), Nat.zero_add, cellAt_cellNumber h, Nat.add_mul_mod_self_left,
    Nat.mod_eq_of_lt (by omega), Nat.sub_add_cancel hlow]
  refine ⟨⟨by omega, ?_⟩, rfl⟩
  have hlt := digit_lt (show site.slot - 1 < m.sitesPerCell by omega) hcell
  unfold volume
  omega

theorem siteAt_eq_ok (h : m.Valid) {index : Nat} {site : LatticeSite}
    (hs : m.siteAt index = .ok site) :
    m.toIndex site = .ok index ∧ m.wrap site.cell = site.cell ∧
      1 ≤ site.slot ∧ site.slot ≤ m.sitesPerCell := by
  obtain ⟨⟨hlow, hhigh⟩, rfl⟩ := siteAt_eq_ok_iff.1 hs
  have hmod := Nat.mod_lt (index - 1) h.sitesPerCell
  have hcell : (index - 1) / m.sitesPerCell < m.cellCount := by
    apply Nat.div_lt_of_lt_mul
    unfold volume at hhigh
    omega
  refine ⟨?_, wrap_cellAt h hcell, by dsimp only; omega, by dsimp only; omega⟩
  rw [toIndex_eq_ok_iff]
  dsimp only
  rw [cellNumber_cellAt h hcell]
  have hdecompose := Nat.mod_add_div (index - 1) m.sitesPerCell
  omega

end Mapping
end LatticeKinetics
