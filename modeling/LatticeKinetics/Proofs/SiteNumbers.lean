import Mathlib.Algebra.Group.Int.Defs
import Mathlib.Algebra.Group.Nat.Defs
import Mathlib.Data.List.Nodup
import LatticeKinetics.Proofs.LatticeMapping

/-! The sites of a lattice and the numbers from one to the volume belong to each other one to one,
and machine words suffice to go from one to the other. Cell numbers are signed words of 32 bits,
slots are words of 32 bits and site numbers words of 64 bits. The numbering is worked out once more
in such words, one operation at a time, where a value that its word cannot hold is no value. -/

namespace LatticeKinetics

namespace Word

def unsigned? (bits n : Nat) : Option Nat :=
  if n < 2 ^ bits then some n else none

def signed? (i : Int) : Option Int :=
  if -2 ^ 31 ≤ i ∧ i < 2 ^ 31 then some i else none

def toSigned? (n : Nat) : Option Int :=
  if n < 2 ^ 31 then some n else none

def ofSigned? (i : Int) : Option Nat :=
  if 0 ≤ i then unsigned? 64 i.toNat else none

def quotient? (a b : Nat) : Option Nat :=
  if b = 0 then none else some (a / b)

def remainder? (a b : Nat) : Option Nat :=
  if b = 0 then none else some (a % b)

theorem unsigned?_of_lt {bits n : Nat} (h : n < 2 ^ bits) : unsigned? bits n = some n :=
  if_pos h

theorem signed?_of_bounds {i : Int} (h : 0 ≤ i ∧ i < 2 ^ 31) : signed? i = some i :=
  if_pos ⟨by omega, h.2⟩

theorem toSigned?_of_lt {n : Nat} (h : n < 2 ^ 31) : toSigned? n = some (n : Int) :=
  if_pos h

theorem ofSigned?_of_bounds {i : Int} (h : 0 ≤ i ∧ i < 2 ^ 31) :
    ofSigned? i = some i.toNat := by
  unfold ofSigned?
  rw [if_pos h.1, unsigned?_of_lt (by omega)]

theorem quotient?_of_pos {a b : Nat} (h : 0 < b) : quotient? a b = some (a / b) :=
  if_neg (by omega)

theorem remainder?_of_pos {a b : Nat} (h : 0 < b) : remainder? a b = some (a % b) :=
  if_neg (by omega)

end Word

namespace Mapping

open Word

variable {m : Mapping}

section Words

def wrapWord? (m : Mapping) (cell : Cell) (axis : Axis) : Option Nat := do
  let extent ← toSigned? (m.extents.get axis)
  let wrapped ← signed? (cell.get axis % extent)
  ofSigned? wrapped

def cellNumberWord? (m : Mapping) (cell : Cell) : Option Nat := do
  let x ← m.wrapWord? cell .x
  let y ← m.wrapWord? cell .y
  let z ← m.wrapWord? cell .z
  let planes ← unsigned? 64 (m.extents.y * z)
  let rows ← unsigned? 64 (y + planes)
  let cells ← unsigned? 64 (m.extents.x * rows)
  unsigned? 64 (x + cells)

def indexWord? (m : Mapping) (site : LatticeSite) : Option Nat := do
  let number ← m.cellNumberWord? site.cell
  let before ← unsigned? 64 (m.sitesPerCell * number)
  unsigned? 64 (before + site.slot)

def cellWords? (m : Mapping) (number : Nat) : Option Cell := do
  let x ← remainder? number m.extents.x
  let rows ← quotient? number m.extents.x
  let y ← remainder? rows m.extents.y
  let plane ← unsigned? 64 (m.extents.x * m.extents.y)
  let z ← quotient? number plane
  pure ⟨← toSigned? x, ← toSigned? y, ← toSigned? z⟩

def siteWords? (m : Mapping) (index : Nat) : Option LatticeSite := do
  guard (1 ≤ index)
  let last ← remainder? (index - 1) m.sitesPerCell
  let slot ← unsigned? 32 ((← unsigned? 32 last) + 1)
  let number ← quotient? (index - 1) m.sitesPerCell
  pure { cell := ← m.cellWords? number, slot }

theorem wrapWord?_eq (h : m.Valid) (cell : Cell) (axis : Axis) :
    m.wrapWord? cell axis = some ((m.wrap cell).get axis).toNat := by
  have hpositive := h.positive axis
  have hbounded := h.bounded axis
  have hwrap := wrap_bounds h cell axis
  unfold maxExtent at hbounded
  rw [get_wrap] at hwrap ⊢
  have hword : 0 ≤ cell.get axis % (m.extents.get axis : Int) ∧
      cell.get axis % (m.extents.get axis : Int) < 2 ^ 31 := by omega
  unfold wrapWord?
  rw [toSigned?_of_lt (by omega), Option.bind_eq_bind, Option.bind_some,
    signed?_of_bounds hword, Option.bind_some, ofSigned?_of_bounds hword]

theorem volume_lt (h : m.Valid) : m.volume < 2 ^ 64 :=
  h.volume

theorem cellCount_lt (h : m.Valid) : m.cellCount < 2 ^ 64 :=
  Nat.lt_of_le_of_lt (Nat.le_mul_of_pos_left _ h.sitesPerCell) (volume_lt h)

/-- Every step is a summand or a factor of the number itself, so it is no larger. -/
theorem cellNumberWord?_eq (h : m.Valid) (cell : Cell) :
    m.cellNumberWord? cell = some (m.cellNumber cell) := by
  have hword : m.cellNumber cell < 2 ^ 64 :=
    Nat.lt_trans (cellNumber_lt h cell) (cellCount_lt h)
  unfold cellNumber at hword ⊢
  dsimp only at hword ⊢
  have hrows := Nat.le_mul_of_pos_left
    ((m.wrap cell).y.toNat + m.extents.y * (m.wrap cell).z.toNat) (h.positive .x)
  dsimp only [Triple.get] at hrows
  unfold cellNumberWord?
  simp (disch := omega) only [wrapWord?_eq h, unsigned?_of_lt, Triple.get, Option.bind_eq_bind,
    Option.bind_some]

theorem indexWord?_eq (h : m.Valid) {site : LatticeSite} {index : Nat}
    (hi : m.toIndex site = .ok index) : m.indexWord? site = some index := by
  obtain ⟨⟨-, hslot⟩, rfl⟩ := toIndex_eq_ok_iff.1 hi
  have hvolume := volume_lt h
  have hlast : m.sitesPerCell * (m.cellNumber site.cell + 1) ≤ m.volume :=
    Nat.mul_le_mul_left _ (cellNumber_lt h site.cell)
  rw [Nat.mul_add] at hlast
  unfold indexWord?
  simp (disch := omega) only [cellNumberWord?_eq h, unsigned?_of_lt, Option.bind_eq_bind,
    Option.bind_some]

theorem cellWords?_eq (h : m.Valid) {number : Nat} (hn : number < m.cellCount) :
    m.cellWords? number = some (m.cellAt number) := by
  have hcells := cellCount_lt h
  unfold cellCount at hn hcells
  have hx := h.positive .x
  have hy := h.positive .y
  have hplanes := Nat.le_mul_of_pos_right (m.extents.x * m.extents.y) (h.positive .z)
  have hbx := h.bounded .x
  have hby := h.bounded .y
  have hbz := h.bounded .z
  unfold maxExtent at hbx hby hbz
  dsimp only [Triple.get] at hx hy hplanes hbx hby hbz
  have hplane : 0 < m.extents.x * m.extents.y := Nat.mul_pos hx hy
  have hdx := Nat.mod_lt number hx
  have hdy := Nat.mod_lt (number / m.extents.x) hy
  have hdz := Nat.div_lt_of_lt_mul hn
  unfold cellWords? cellAt
  simp (disch := omega) only [quotient?_of_pos, remainder?_of_pos, unsigned?_of_lt,
    toSigned?_of_lt, Option.pure_def, Option.bind_eq_bind, Option.bind_some]

theorem siteWords?_eq (h : m.Valid) (hslots : m.sitesPerCell < 2 ^ 32) {index : Nat}
    {site : LatticeSite} (hs : m.siteAt index = .ok site) : m.siteWords? index = some site := by
  obtain ⟨⟨hlow, hhigh⟩, rfl⟩ := siteAt_eq_ok_iff.1 hs
  have hrest := Nat.mod_lt (index - 1) h.sitesPerCell
  have hcell : (index - 1) / m.sitesPerCell < m.cellCount := by
    apply Nat.div_lt_of_lt_mul
    unfold volume at hhigh
    omega
  unfold siteWords?
  simp (disch := omega) only [quotient?_of_pos h.sitesPerCell, remainder?_of_pos h.sitesPerCell,
    unsigned?_of_lt, cellWords?_eq h hcell, guard, hlow, if_true, Option.pure_def,
    Option.bind_eq_bind, Option.bind_some]

end Words

/-- The sites of the system: all slots of all cells inside the repeat counts. -/
structure Holds (m : Mapping) (site : LatticeSite) : Prop where
  cell : ∀ axis, 0 ≤ site.cell.get axis ∧ site.cell.get axis < m.extents.get axis
  slot : 1 ≤ site.slot ∧ site.slot ≤ m.sitesPerCell

theorem holds_iff_wrap (h : m.Valid) {site : LatticeSite} :
    m.Holds site ↔
      m.wrap site.cell = site.cell ∧ 1 ≤ site.slot ∧ site.slot ≤ m.sitesPerCell := by
  constructor
  · rintro ⟨hcell, hslot⟩
    refine ⟨?_, hslot⟩
    ext axis
    rw [get_wrap]
    exact Int.emod_eq_of_lt (hcell axis).1 (hcell axis).2
  · rintro ⟨hwrap, hslot⟩
    refine ⟨fun axis => ?_, hslot⟩
    rw [← hwrap]
    exact wrap_bounds h site.cell axis

theorem siteAt_eq_ok_iff_toIndex (h : m.Valid) {site : LatticeSite} {index : Nat} :
    m.siteAt index = .ok site ↔ m.Holds site ∧ m.toIndex site = .ok index := by
  constructor
  · intro hs
    obtain ⟨hindex, hholds⟩ := siteAt_eq_ok h hs
    exact ⟨(holds_iff_wrap h).2 hholds, hindex⟩
  · rintro ⟨hholds, hindex⟩
    have hs := siteAt_of_toIndex h hindex
    rwa [((holds_iff_wrap h).1 hholds).1] at hs

theorem exists_toIndex_iff {site : LatticeSite} :
    (∃ index, m.toIndex site = .ok index) ↔ 1 ≤ site.slot ∧ site.slot ≤ m.sitesPerCell := by
  simp only [toIndex_eq_ok_iff, exists_and_left, exists_eq, and_true]

theorem exists_siteAt_iff {index : Nat} :
    (∃ site, m.siteAt index = .ok site) ↔ 1 ≤ index ∧ index ≤ m.volume := by
  simp only [siteAt_eq_ok_iff, exists_and_left, exists_eq, and_true]

theorem mem_ordering (h : m.Valid) {site : LatticeSite} :
    site ∈ m.ordering ↔ m.Holds site := by
  unfold ordering firstSites
  simp only [Nat.min_self, List.mem_filterMap, List.mem_range, toOption_eq_some_iff]
  constructor
  · rintro ⟨i, -, hs⟩
    exact ((siteAt_eq_ok_iff_toIndex h).1 hs).1
  · intro hholds
    obtain ⟨index, hindex⟩ := exists_toIndex_iff.2 hholds.slot
    have hs := (siteAt_eq_ok_iff_toIndex h).2 ⟨hholds, hindex⟩
    obtain ⟨hlow, hhigh⟩ := exists_siteAt_iff.1 ⟨site, hs⟩
    refine ⟨index - 1, by omega, ?_⟩
    rwa [Nat.sub_add_cancel hlow]

theorem ordering_nodup (h : m.Valid) : m.ordering.Nodup := by
  unfold ordering firstSites
  refine List.Nodup.filterMap ?_ List.nodup_range
  intro i j site hi hj
  have hi := ((siteAt_eq_ok_iff_toIndex h).1 (toOption_eq_some_iff.1 hi)).2
  have hj := ((siteAt_eq_ok_iff_toIndex h).1 (toOption_eq_some_iff.1 hj)).2
  exact Nat.add_right_cancel (Except.ok.inj (hi.symm.trans hj))

theorem error_toIndex_iff {site : LatticeSite} :
    (∃ e, m.toIndex site = .error e) ↔ ¬(1 ≤ site.slot ∧ site.slot ≤ m.sitesPerCell) := by
  rw [← exists_toIndex_iff]
  cases m.toIndex site <;> simp

theorem error_siteAt_iff {index : Nat} :
    (∃ e, m.siteAt index = .error e) ↔ ¬(1 ≤ index ∧ index ≤ m.volume) := by
  rw [← exists_siteAt_iff]
  cases m.siteAt index <;> simp

theorem wrap_collapsed (h : m.Valid) (cell : Cell) {axis : Axis}
    (haxis : m.dimension ≤ axis.number) : (m.wrap cell).get axis = 0 := by
  rw [get_wrap, h.collapsed axis haxis]
  exact Int.emod_one _

theorem cellAt_collapsed (h : m.Valid) {number : Nat} (hn : number < m.cellCount) {axis : Axis}
    (haxis : m.dimension ≤ axis.number) : (m.cellAt number).get axis = 0 := by
  rw [← wrap_cellAt h hn]
  exact wrap_collapsed h _ haxis

theorem extents_of_ofExtents {dimension sitesPerCell : Nat} {extents : List Nat}
    (h : ofExtents dimension sitesPerCell extents = .ok m) :
    m.extents = Triple.ofList 1 extents := by
  unfold ofExtents at h
  obtain ⟨_, -, h⟩ := bind_eq_ok_iff.1 h
  split at h
  · simp at h
  · obtain ⟨_, -, h⟩ := bind_eq_ok_iff.1 h
    dsimp only at h
    split at h
    · rw [← pure_eq_ok_iff.1 h]
    · simp at h

end Mapping

open Mapping in
/-- For all repeat counts that are accepted, numbering the sites and finding the site of a number
undo each other, between the sites of the system and the numbers from one to the volume. A cell
anywhere has the number of the cell it wraps around to. Only a slot that the cell does not have and
a number beyond the volume are refused, no step needs a longer word than there is, and the ordering
lists every site once. -/
theorem numbering_is_one_to_one {dimension : Nat} {sitesPerCell : UInt32} {extents : List UInt32}
    {m : Mapping}
    (h : ofExtents dimension sitesPerCell.toNat (extents.map UInt32.toNat) = .ok m) :
    (m.sitesPerCell = sitesPerCell.toNat ∧
      m.extents = Triple.ofList 1 (extents.map UInt32.toNat)) ∧
    (∀ site, m.Holds site → ∃ index, (1 ≤ index ∧ index ≤ m.volume) ∧
      m.toIndex site = .ok index ∧ m.siteAt index = .ok site) ∧
    (∀ index, 1 ≤ index ∧ index ≤ m.volume → ∃ site, m.Holds site ∧
      m.siteAt index = .ok site ∧ m.toIndex site = .ok index) ∧
    (∀ cell slot, 1 ≤ slot ∧ slot ≤ m.sitesPerCell → ∃ index,
      m.toIndex ⟨cell, slot⟩ = .ok index ∧ m.siteAt index = .ok ⟨m.wrap cell, slot⟩ ∧
      ∀ axis : Axis, dimension ≤ axis.number → (m.wrap cell).get axis = 0) ∧
    (∀ site, (∃ e, m.toIndex site = .error e) ↔
      ¬(1 ≤ site.slot ∧ site.slot ≤ m.sitesPerCell)) ∧
    (∀ index, (∃ e, m.siteAt index = .error e) ↔ ¬(1 ≤ index ∧ index ≤ m.volume)) ∧
    (∀ site index, m.toIndex site = .ok index → m.indexWord? site = some index) ∧
    (∀ index site, m.siteAt index = .ok site → m.siteWords? index = some site) ∧
    m.ordering.Nodup ∧ ∀ site, site ∈ m.ordering ↔ m.Holds site := by
  obtain ⟨hvalid, rfl, hslots⟩ := ofExtents_eq_ok h
  refine ⟨⟨hslots, extents_of_ofExtents h⟩, ?_, ?_, ?_, fun _ => error_toIndex_iff,
    fun _ => error_siteAt_iff, fun _ _ => indexWord?_eq hvalid,
    fun _ _ => siteWords?_eq hvalid ?_, ordering_nodup hvalid, fun _ => mem_ordering hvalid⟩
  · intro site hholds
    obtain ⟨index, hindex⟩ := exists_toIndex_iff.2 hholds.slot
    have hsite := (siteAt_eq_ok_iff_toIndex hvalid).2 ⟨hholds, hindex⟩
    exact ⟨index, exists_siteAt_iff.1 ⟨site, hsite⟩, hindex, hsite⟩
  · intro index hrange
    obtain ⟨site, hsite⟩ := exists_siteAt_iff.2 hrange
    obtain ⟨hholds, hindex⟩ := (siteAt_eq_ok_iff_toIndex hvalid).1 hsite
    exact ⟨site, hholds, hsite, hindex⟩
  · intro cell slot hslot
    obtain ⟨index, hindex⟩ : ∃ index, m.toIndex ⟨cell, slot⟩ = .ok index :=
      exists_toIndex_iff.2 hslot
    exact ⟨index, hindex, siteAt_of_toIndex hvalid hindex, fun _ => wrap_collapsed hvalid cell⟩
  · rw [hslots]
    exact sitesPerCell.toNat_lt

/-- The largest square: its last site has a number of 63 bits. -/
theorem numbering_of_largest_square :
    ∃ m, Mapping.ofExtents 2 (2 : UInt32).toNat ([2147483647, 2147483647].map UInt32.toNat) =
        .ok m ∧ m.volume = 9223372028264841218 ∧
      m.indexWord? ⟨⟨-1, -1, 0⟩, 2⟩ = some 9223372028264841218 ∧
      m.siteWords? 9223372028264841218 = some ⟨⟨2147483646, 2147483646, 0⟩, 2⟩ := by
  have h : Mapping.ofExtents 2 (2 : UInt32).toNat ([2147483647, 2147483647].map UInt32.toNat) =
      .ok ⟨2, 2, ⟨2147483647, 2147483647, 1⟩⟩ := by decide +kernel
  obtain ⟨-, -, -, -, -, -, hindex, hsite, -⟩ := numbering_is_one_to_one h
  exact ⟨_, h, by decide +kernel, hindex _ _ (by decide +kernel), hsite _ _ (by decide +kernel)⟩

end LatticeKinetics
