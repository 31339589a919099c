import LatticeKinetics.Lattice.Formula
import LatticeKinetics.Proofs.SiteNumbers
import Mathlib.Algebra.Order.BigOperators.Group.List
import Mathlib.Tactic.Ring

/-! The formula for the numbering, evaluated for repeat counts that are accepted, is the numbering.
It says nothing of the axes along which the lattice does not repeat, and takes no remainder along
the outermost axis: no cell of the system lies beyond it. The formula is evaluated once more in
machine words. Cell numbers are signed words of 64 bits there, of which those that are not negative
hold 63 bits. -/

namespace LatticeKinetics

open Word

namespace Word

variable {α : Type} {bits start : Nat} {as : List α}

theorem foldl_mul_eq (size : α → Nat) (start : Nat) (as : List α) :
    as.foldl (fun n a => n * size a) start = start * as.foldr (fun a n => size a * n) 1 := by
  induction as generalizing start with
  | nil => rw [List.foldl_nil, List.foldr_nil, Nat.mul_one]
  | cons a as ih => rw [List.foldl_cons, ih, List.foldr_cons, Nat.mul_assoc]

theorem le_foldl_mul {size : α → Nat} (hsize : ∀ a, 0 < size a) (start : Nat) (as : List α) :
    start ≤ as.foldl (fun n a => n * size a) start := by
  induction as generalizing start with
  | nil => exact Nat.le_refl _
  | cons a as ih => exact Nat.le_trans (Nat.le_mul_of_pos_right start (hsize a)) (ih _)

/-- If a word holds the product, it holds all products on the way. -/
theorem foldlM_mul_eq {size : α → Nat} (hsize : ∀ a, 0 < size a)
    (h : as.foldl (fun n a => n * size a) start < 2 ^ bits) :
    as.foldlM (fun n a => unsigned? bits (n * size a)) start =
      some (as.foldl (fun n a => n * size a) start) := by
  induction as generalizing start with
  | nil => rfl
  | cons a as ih =>
    have hfirst : start * size a < 2 ^ bits := Nat.lt_of_le_of_lt (le_foldl_mul hsize _ as) h
    rw [List.foldlM_cons, unsigned?_of_lt hfirst, Option.bind_eq_bind, Option.bind_some]
    exact ih h

theorem foldlM_add_eq {value : α → Nat} {word? : α → Option Nat}
    (hword : ∀ a ∈ as, word? a = some (value a)) (h : start + (as.map value).sum < 2 ^ bits) :
    as.foldlM (fun n a => do unsigned? bits (n + (← word? a))) start =
      some (start + (as.map value).sum) := by
  induction as generalizing start with
  | nil => rfl
  | cons a as ih =>
    rw [List.map_cons, List.sum_cons, ← Nat.add_assoc] at h ⊢
    have hfirst : start + value a < 2 ^ bits := Nat.lt_of_le_of_lt (Nat.le_add_right _ _) h
    rw [List.foldlM_cons, hword a List.mem_cons_self, Option.bind_eq_bind, Option.bind_some,
      unsigned?_of_lt hfirst, Option.bind_some]
    exact ih (fun b hb => hword b (List.mem_cons_of_mem _ hb)) h

end Word

def ForwardTerm.word? (extents : List Nat) (cell : Cell) (term : ForwardTerm) : Option Nat :=
  term.stride.foldlM (fun n axis => unsigned? 63 (n * extentOf extents axis))
    (cell.get term.axis % (extentOf extents term.axis : Int)).toNat

def InverseTerm.word? (extents : List Nat) (cellNumber : Nat) (term : InverseTerm) :
    Option Int := do
  let divisor ← term.divisor.foldlM (fun n axis => unsigned? 64 (n * extentOf extents axis)) 1
  let quotient ← quotient? cellNumber divisor
  match term.modulus with
  | some axis => toSigned? (← remainder? quotient (extentOf extents axis))
  | none => toSigned? quotient

namespace Formula

theorem forwardCell_eq_sum (f : Formula) (extents : List Nat) (cell : Cell) :
    f.forwardCell extents cell = (f.forwardTerms.map (·.value extents cell)).sum :=
  List.sum_eq_foldl_nat.symm

def forwardCellWord? (f : Formula) (extents : List Nat) (cell : Cell) : Option Nat :=
  f.forwardTerms.foldlM (fun n term => do unsigned? 63 (n + (← term.word? extents cell))) 0

def forwardWord? (f : Formula) (extents : List Nat) (cell : Cell) (slot : Nat) : Option Nat := do
  let number ← f.forwardCellWord? extents cell
  let before ← unsigned? 64 (f.sitesPerCell * number)
  unsigned? 64 (before + slot)

def cellWord? (f : Formula) (extents : List Nat) (cellNumber : Nat) (axis : Axis) : Option Int :=
  match f.inverseTerms.find? (·.axis == axis) with
  | some term => term.word? extents cellNumber
  | none => some 0

def inverseWord? (f : Formula) (extents : List Nat) (index : Nat) : Option LatticeSite := do
  let last ← remainder? (index - 1) f.sitesPerCell
  let slot ← unsigned? 32 ((← unsigned? 32 last) + 1)
  let number ← quotient? (index - 1) f.sitesPerCell
  let x ← f.cellWord? extents number .x
  let y ← f.cellWord? extents number .y
  let z ← f.cellWord? extents number .z
  pure { cell := ⟨x, y, z⟩, slot }

end Formula

theorem extentOf_pos (extents : List Nat) (axis : Axis) : 0 < extentOf extents axis :=
  Nat.le_max_left 1 _

theorem lowWord_of_lt {n : Nat} (h : n < 2 ^ 31) : lowWord n = n := by
  unfold lowWord
  exact Int.bmod_eq_of_le (by omega) (by omega)

def Axis.below (axis : Axis) : List Axis :=
  all.take axis.number

namespace Mapping

variable {m : Mapping} {extents : List Nat}

def symbolic (m : Mapping) : Formula :=
  { dimension := m.dimension, sitesPerCell := m.sitesPerCell }

theorem extentOf_eq (hv : m.Valid) (h : m.extents = Triple.ofList 1 extents) (axis : Axis) :
    extentOf extents axis = m.extents.get axis := by
  have hget : m.extents.get axis = extents.getD axis.number 1 := by
    rw [h, Triple.ofList, Triple.get_ofAxes]
  unfold extentOf
  rw [← hget]
  exact Nat.max_eq_right (hv.positive axis)

theorem dimension_cases (hv : m.Valid) :
    m.dimension = 1 ∨ m.dimension = 2 ∨ m.dimension = 3 := by
  have := hv.dimension
  omega

theorem checkCell_of_valid (hv : m.Valid) : checkCell m.dimension m.sitesPerCell = .ok () := by
  have hdimension := hv.dimension
  have hpositive := hv.sitesPerCell
  rw [checkCell, if_neg (by omega), if_neg (by omega)]

/-- Each term is a digit of the cell number; the digits that have no term are zero. -/
theorem forwardCell_eq (hv : m.Valid) (h : ∀ axis, extentOf extents axis = m.extents.get axis)
    (cell : Cell) : m.symbolic.forwardCell extents cell = m.cellNumber cell := by
  have hdigit (axis : Axis) : (cell.get axis % (extentOf extents axis : Int)).toNat =
      ((m.wrap cell).get axis).toNat := by
    rw [h, get_wrap]
  have hflat (axis : Axis) (haxis : m.dimension ≤ axis.number) :
      ((m.wrap cell).get axis).toNat = 0 := by
    rw [wrap_collapsed hv cell haxis]
    rfl
  have hnumber : m.cellNumber cell = ((m.wrap cell).get .x).toNat + m.extents.get .x *
      (((m.wrap cell).get .y).toNat + m.extents.get .y * ((m.wrap cell).get .z).toNat) := rfl
  rw [hnumber, Formula.forwardCell_eq_sum]
  unfold symbolic
  rcases dimension_cases hv with hd | hd | hd
  · rw [hflat .y (by rw [hd]; decide), hflat .z (by rw [hd]; decide), hd]
    change (cell.get .x % (extentOf extents .x : Int)).toNat + 0 = _
    rw [hdigit]
    ring
  · rw [hflat .z (by rw [hd]; decide), hd]
    change (cell.get .x % (extentOf extents .x : Int)).toNat +
      ((cell.get .y % (extentOf extents .y : Int)).toNat * extentOf extents .x + 0) = _
    rw [hdigit, hdigit, h]
    ring
  · rw [hd]
    change (cell.get .x % (extentOf extents .x : Int)).toNat +
      ((cell.get .y % (extentOf extents .y : Int)).toNat * extentOf extents .x +
      ((cell.get .z % (extentOf extents .z : Int)).toNat * extentOf extents .x *
        extentOf extents .y + 0)) = _
    rw [hdigit, hdigit, hdigit, h, h]
    ring

/-- So many cells lie between two that follow each other along the axis. -/
def stride (m : Mapping) (axis : Axis) : Nat :=
  axis.below.foldr (fun inner n => m.extents.get inner * n) 1

theorem stride_le (hv : m.Valid) (axis : Axis) : m.stride axis ≤ m.cellCount := by
  have hx := hv.positive .x
  have hy := hv.positive .y
  have hz := hv.positive .z
  cases axis with
  | x => exact Nat.mul_pos (Nat.mul_pos hx hy) hz
  | y =>
    change m.extents.x * 1 ≤ m.extents.x * m.extents.y * m.extents.z
    rw [Nat.mul_assoc]
    exact Nat.mul_le_mul_left _ (Nat.mul_pos hy hz)
  | z =>
    change m.extents.x * (m.extents.y * 1) ≤ m.extents.x * m.extents.y * m.extents.z
    rw [Nat.mul_one]
    exact Nat.le_mul_of_pos_right _ hz

theorem cellCount_eq_of_outermost (hv : m.Valid) {axis : Axis}
    (haxis : m.dimension ≤ axis.number + 1) :
    m.cellCount = m.stride axis * m.extents.get axis := by
  cases axis with
  | x =>
    have hy : m.extents.y = 1 := hv.collapsed .y haxis
    have hz : m.extents.z = 1 := hv.collapsed .z (Nat.le_succ_of_le haxis)
    change m.extents.x * m.extents.y * m.extents.z = 1 * m.extents.x
    rw [hy, hz, Nat.mul_one, Nat.mul_one, Nat.one_mul]
  | y =>
    have hz : m.extents.z = 1 := hv.collapsed .z haxis
    change m.extents.x * m.extents.y * m.extents.z = m.extents.x * 1 * m.extents.y
    rw [hz, Nat.mul_one, Nat.mul_one]
  | z =>
    change m.extents.x * m.extents.y * m.extents.z = m.extents.x * (m.extents.y * 1) * m.extents.z
    rw [Nat.mul_one]

theorem div_stride_lt (hv : m.Valid) {number : Nat} (hn : number < m.cellCount) {axis : Axis}
    (haxis : m.dimension ≤ axis.number + 1) : number / m.stride axis < m.extents.get axis := by
  rw [cellCount_eq_of_outermost hv haxis] at hn
  exact Nat.div_lt_of_lt_mul hn

theorem get_cellAt (hv : m.Valid) {number : Nat} (hn : number < m.cellCount) (axis : Axis) :
    (m.cellAt number).get axis = (number / m.stride axis % m.extents.get axis : Nat) := by
  cases axis with
  | x =>
    change ((number % m.extents.x : Nat) : Int) = (number / 1 % m.extents.x : Nat)
    rw [Nat.div_one]
  | y =>
    change ((number / m.extents.x % m.extents.y : Nat) : Int) =
      (number / (m.extents.x * 1) % m.extents.y : Nat)
    rw [Nat.mul_one]
  | z =>
    have hdimension : m.dimension ≤ Axis.z.number + 1 := hv.dimension.2
    rw [Nat.mod_eq_of_lt (div_stride_lt hv hn hdimension)]
    change ((number / (m.extents.x * m.extents.y) : Nat) : Int) =
      (number / (m.extents.x * (m.extents.y * 1)) : Nat)
    rw [Nat.mul_one]

theorem inverseTerm?_eq (hv : m.Valid) (axis : Axis) :
    m.symbolic.inverseTerms.find? (·.axis == axis) =
      if axis.number < m.dimension then
        some ⟨axis, axis.below, if axis.number + 1 < m.dimension then some axis else none⟩
      else none := by
  unfold symbolic
  rcases dimension_cases hv with hd | hd | hd <;> rw [hd] <;> cases axis <;> rfl

/-- What the formula has for an axis: nothing if the lattice does not repeat along it, otherwise a
quotient that is the cell number along the axis. -/
theorem inverseTerm_cases (hv : m.Valid) (h : ∀ axis, extentOf extents axis = m.extents.get axis)
    {number : Nat} (hn : number < m.cellCount) (axis : Axis) :
    (m.symbolic.inverseTerms.find? (·.axis == axis) = none ∧ (m.cellAt number).get axis = 0) ∨
    ∃ term, m.symbolic.inverseTerms.find? (·.axis == axis) = some term ∧
      term.divisor.foldl (fun n axis => n * extentOf extents axis) 1 ≤ m.cellCount ∧
      (term.value extents number : Int) = (m.cellAt number).get axis := by
  have hdivisor : axis.below.foldr (fun axis n => extentOf extents axis * n) 1 = m.stride axis := by
    simp only [h, stride]
  rw [inverseTerm?_eq hv axis]
  by_cases haxis : axis.number < m.dimension
  · refine .inr ⟨_, if_pos haxis, ?_, ?_⟩
    · rw [foldl_mul_eq, hdivisor, Nat.one_mul]
      exact stride_le hv axis
    · rw [get_cellAt hv hn axis]
      unfold InverseTerm.value
      rw [hdivisor]
      by_cases hinner : axis.number + 1 < m.dimension
      · rw [if_pos hinner]
        dsimp only
        rw [h]
      · rw [if_neg hinner, Nat.mod_eq_of_lt (div_stride_lt hv hn (Nat.le_of_not_lt hinner))]
  · exact .inl ⟨if_neg haxis, cellAt_collapsed hv hn (Nat.le_of_not_lt haxis)⟩

theorem cellAt_get_lt (hv : m.Valid) {number : Nat} (hn : number < m.cellCount) (axis : Axis) :
    (m.cellAt number).get axis < 2 ^ 31 := by
  have hwrap := (wrap_bounds hv (m.cellAt number) axis).2
  have hbounded := hv.bounded axis
  rw [wrap_cellAt hv hn] at hwrap
  unfold maxExtent at hbounded
  omega

theorem cellNumber_of_index_lt {index : Nat} (h : 1 ≤ index ∧ index ≤ m.volume) :
    (index - 1) / m.sitesPerCell < m.cellCount := by
  apply Nat.div_lt_of_lt_mul
  have hhigh := h.2
  unfold volume at hhigh
  omega

theorem cell_inverse_eq (hv : m.Valid) (h : ∀ axis, extentOf extents axis = m.extents.get axis)
    {index : Nat} (hindex : (index - 1) / m.sitesPerCell < m.cellCount) :
    (m.symbolic.inverse extents index).cell = m.cellAt ((index - 1) / m.sitesPerCell) := by
  apply Triple.ext_get
  intro axis
  unfold Formula.inverse
  dsimp only
  rw [Triple.get_ofAxes]
  rcases inverseTerm_cases hv h hindex axis with ⟨hterm, hzero⟩ | ⟨term, hterm, -, hvalue⟩
  · rw [hterm, hzero]
  · have hword := cellAt_get_lt hv hindex axis
    rw [← hvalue] at hword ⊢
    rw [hterm]
    exact lowWord_of_lt (by exact_mod_cast hword)

theorem siteAt_inverse (hv : m.Valid) (h : ∀ axis, extentOf extents axis = m.extents.get axis)
    {index : Nat} (hindex : 1 ≤ index ∧ index ≤ m.volume) :
    m.siteAt index = .ok (m.symbolic.inverse extents index) := by
  rw [siteAt_eq_ok_iff, ← cell_inverse_eq hv h (cellNumber_of_index_lt hindex)]
  exact ⟨hindex, rfl⟩

theorem toIndex_forward (hv : m.Valid) (h : ∀ axis, extentOf extents axis = m.extents.get axis)
    {cell : Cell} {slot : Nat} (hslot : 1 ≤ slot ∧ slot ≤ m.sitesPerCell) :
    m.toIndex ⟨cell, slot⟩ = .ok (m.symbolic.forward extents cell slot) := by
  rw [toIndex_eq_ok_iff, ← forwardCell_eq hv h]
  exact ⟨hslot, rfl⟩

/-! ### Machine words -/

theorem forwardCellWord?_eq (hv : m.Valid)
    (h : ∀ axis, extentOf extents axis = m.extents.get axis) (hcells : m.cellCount < 2 ^ 63)
    (cell : Cell) :
    m.symbolic.forwardCellWord? extents cell = some (m.symbolic.forwardCell extents cell) := by
  have hnumber : m.symbolic.forwardCell extents cell < 2 ^ 63 := by
    rw [forwardCell_eq hv h]
    exact Nat.lt_trans (cellNumber_lt hv cell) hcells
  have hterms : ∀ term ∈ m.symbolic.forwardTerms,
      term.word? extents cell = some (term.value extents cell) := by
    intro term hterm
    -- The factors of a term are no larger than the term, and this no larger than the sum.
    have hle : term.value extents cell ≤ m.symbolic.forwardCell extents cell := by
      rw [Formula.forwardCell_eq_sum]
      exact List.le_sum_of_mem (List.mem_map_of_mem hterm)
    exact foldlM_mul_eq (extentOf_pos extents) (Nat.lt_of_le_of_lt hle hnumber)
  rw [Formula.forwardCell_eq_sum] at hnumber ⊢
  unfold Formula.forwardCellWord?
  rw [foldlM_add_eq hterms (by rwa [Nat.zero_add]), Nat.zero_add]

theorem forwardWord?_eq (hv : m.Valid) (h : ∀ axis, extentOf extents axis = m.extents.get axis)
    (hcells : m.cellCount < 2 ^ 63) {cell : Cell} {slot : Nat}
    (hslot : 1 ≤ slot ∧ slot ≤ m.sitesPerCell) :
    m.symbolic.forwardWord? extents cell slot = some (m.symbolic.forward extents cell slot) := by
  have hindex : m.toIndex ⟨cell, slot⟩ = .ok (m.symbolic.forward extents cell slot) :=
    toIndex_forward hv h hslot
  have hsite := siteAt_of_toIndex hv hindex
  have hvolume := Nat.lt_of_le_of_lt (exists_siteAt_iff.1 ⟨_, hsite⟩).2 (volume_lt hv)
  unfold Formula.forward at hvolume ⊢
  unfold Formula.forwardWord?
  simp (disch := omega) only [forwardCellWord?_eq hv h hcells, unsigned?_of_lt,
    Option.bind_eq_bind, Option.bind_some]

theorem word?_eq {term : InverseTerm} {number : Nat}
    (hdivisor : term.divisor.foldl (fun n axis => n * extentOf extents axis) 1 < 2 ^ 64)
    (hvalue : term.value extents number < 2 ^ 31) :
    term.word? extents number = some (term.value extents number : Int) := by
  have hpositive := le_foldl_mul (extentOf_pos extents) 1 term.divisor
  have hproduct := foldlM_mul_eq (extentOf_pos extents) hdivisor
  have hquotient := foldl_mul_eq (extentOf extents) 1 term.divisor
  rw [Nat.one_mul] at hquotient
  unfold InverseTerm.word?
  unfold InverseTerm.value at hvalue ⊢
  rw [← hquotient] at hvalue ⊢
  rw [hproduct, Option.bind_eq_bind, Option.bind_some, quotient?_of_pos hpositive,
    Option.bind_some]
  cases hmodulus : term.modulus with
  | none =>
    rw [hmodulus] at hvalue
    exact toSigned?_of_lt hvalue
  | some axis =>
    rw [hmodulus] at hvalue
    dsimp only at hvalue ⊢
    rw [remainder?_of_pos (extentOf_pos extents axis)]
    exact toSigned?_of_lt hvalue

theorem cellWord?_eq (hv : m.Valid) (h : ∀ axis, extentOf extents axis = m.extents.get axis)
    {number : Nat} (hn : number < m.cellCount) (axis : Axis) :
    m.symbolic.cellWord? extents number axis = some ((m.cellAt number).get axis) := by
  unfold Formula.cellWord?
  rcases inverseTerm_cases hv h hn axis with ⟨hterm, hzero⟩ | ⟨term, hterm, hdivisor, hvalue⟩
  · rw [hterm, hzero]
  · have hword := cellAt_get_lt hv hn axis
    rw [← hvalue] at hword ⊢
    rw [hterm]
    exact word?_eq (Nat.lt_of_le_of_lt hdivisor (cellCount_lt hv)) (by exact_mod_cast hword)

theorem inverseWord?_eq (hv : m.Valid) (h : ∀ axis, extentOf extents axis = m.extents.get axis)
    (hslots : m.sitesPerCell < 2 ^ 32) {index : Nat} (hindex : 1 ≤ index ∧ index ≤ m.volume) :
    m.symbolic.inverseWord? extents index = some (m.symbolic.inverse extents index) := by
  have hnumber := cellNumber_of_index_lt hindex
  have hrest := Nat.mod_lt (index - 1) hv.sitesPerCell
  have hinverse : m.symbolic.inverse extents index =
      ⟨m.cellAt ((index - 1) / m.sitesPerCell), (index - 1) % m.sitesPerCell + 1⟩ :=
    (siteAt_eq_ok_iff.1 (siteAt_inverse hv h hindex)).2
  have hsites : m.symbolic.sitesPerCell = m.sitesPerCell := rfl
  rw [hinverse]
  unfold Formula.inverseWord?
  rw [hsites]
  simp (disch := omega) only [quotient?_of_pos hv.sitesPerCell, remainder?_of_pos hv.sitesPerCell,
    unsigned?_of_lt, cellWord?_eq hv h hnumber, Option.pure_def, Option.bind_eq_bind,
    Option.bind_some]
  rfl

end Mapping

open Mapping in
/-- For all repeat counts that are accepted and give fewer cells than a signed word of 64 bits can
count, the formula gives every site its number, also a site of a cell outside of the system, and
every number up to the volume its site. Evaluated in machine words, it gives the same. -/
theorem formula_agrees_with_mapping {dimension : Nat} {sitesPerCell : UInt32}
    {extents : List UInt32} {m : Mapping}
    (h : ofExtents dimension sitesPerCell.toNat (extents.map UInt32.toNat) = .ok m)
    (hcells : m.cellCount < 2 ^ 63) :
    ∃ f, Formula.ofCell dimension sitesPerCell.toNat = .ok f ∧
      (∀ cell slot, 1 ≤ slot ∧ slot ≤ sitesPerCell.toNat →
        m.toIndex ⟨cell, slot⟩ = .ok (f.forward (extents.map UInt32.toNat) cell slot) ∧
        f.forwardWord? (extents.map UInt32.toNat) cell slot =
          some (f.forward (extents.map UInt32.toNat) cell slot)) ∧
      ∀ index, 1 ≤ index ∧ index ≤ m.volume →
        m.siteAt index = .ok (f.inverse (extents.map UInt32.toNat) index) ∧
        f.inverseWord? (extents.map UInt32.toNat) index =
          some (f.inverse (extents.map UInt32.toNat) index) := by
  obtain ⟨hv, rfl, hslots⟩ := ofExtents_eq_ok h
  have hextents := extentOf_eq hv (extents_of_ofExtents h)
  have hsmall : m.sitesPerCell < 2 ^ 32 := hslots ▸ sitesPerCell.toNat_lt
  rw [← hslots]
  refine ⟨m.symbolic, ?_, ?_, ?_⟩
  · rw [Formula.ofCell, checkCell_of_valid hv]
    rfl
  · intro cell slot hslot
    exact ⟨toIndex_forward hv hextents hslot, forwardWord?_eq hv hextents hcells hslot⟩
  · intro index hindex
    exact ⟨siteAt_inverse hv hextents hindex, inverseWord?_eq hv hextents hsmall hindex⟩

/-- The largest square, entered from the corner cell behind the origin; the third axis, which a
square does not have, is ignored. -/
theorem formula_agrees_on_largest_square :
    ∃ m f, Mapping.ofExtents 2 (2 : UInt32).toNat
        (([2147483647, 2147483647] : List UInt32).map UInt32.toNat) = .ok m ∧
      m.cellCount < 2 ^ 63 ∧ Formula.ofCell 2 (2 : UInt32).toNat = .ok f ∧
      m.toIndex ⟨⟨-1, -1, 7⟩, 2⟩ = .ok 9223372028264841218 ∧
      f.forwardWord? [2147483647, 2147483647] ⟨-1, -1, 7⟩ 2 = some 9223372028264841218 ∧
      m.siteAt 9223372028264841218 = .ok ⟨⟨2147483646, 2147483646, 0⟩, 2⟩ ∧
      f.inverseWord? [2147483647, 2147483647] 9223372028264841218 =
        some ⟨⟨2147483646, 2147483646, 0⟩, 2⟩ := by
  have h : Mapping.ofExtents 2 (2 : UInt32).toNat
      (([2147483647, 2147483647] : List UInt32).map UInt32.toNat) =
      .ok ⟨2, 2, ⟨2147483647, 2147483647, 1⟩⟩ := by decide +kernel
  have hcells : (⟨2, 2, ⟨2147483647, 2147483647, 1⟩⟩ : Mapping).cellCount < 2 ^ 63 := by decide
  obtain ⟨f, hf, hforward, hinverse⟩ := formula_agrees_with_mapping h hcells
  obtain rfl : ⟨2, 2⟩ = f := Except.ok.inj hf
  obtain ⟨hindex, hindexWord⟩ := hforward ⟨-1, -1, 7⟩ 2 (by decide)
  obtain ⟨hsite, hsiteWord⟩ := hinverse 9223372028264841218 (by decide +kernel)
  have hnumber : Formula.forward ⟨2, 2⟩ (([2147483647, 2147483647] : List UInt32).map UInt32.toNat)
      ⟨-1, -1, 7⟩ 2 = 9223372028264841218 := by decide +kernel
  have hcorner : Formula.inverse ⟨2, 2⟩ (([2147483647, 2147483647] : List UInt32).map UInt32.toNat)
      9223372028264841218 = ⟨⟨2147483646, 2147483646, 0⟩, 2⟩ := by decide +kernel
  rw [hnumber] at hindex hindexWord
  rw [hcorner] at hsite hsiteWord
  exact ⟨_, _, h, hcells, hf, hindex, hindexWord, hsite, hsiteWord⟩

end LatticeKinetics
