import LatticeKinetics.Proofs.LatticeMapping

/-! Going from site to site on a periodic lattice. Two steps come to the same as one step by the sum
of their offsets, the step back undoes a step, and two offsets lead to the same site exactly when
they differ by whole periods along the axes of the lattice. -/

namespace LatticeKinetics

namespace Offset

def add : List Int → List Int → List Int
  | [], b => b
  | a, [] => a
  | x :: a, y :: b => (x + y) :: add a b

def negate (a : List Int) : List Int :=
  a.map (- ·)

@[simp] theorem getD_add (a b : List Int) (n : Nat) :
    (add a b).getD n 0 = a.getD n 0 + b.getD n 0 := by
  fun_induction add a b generalizing n with
  | case1 b => simp
  | case2 a ha => simp
  | case3 x a y b ih =>
    cases n with
    | zero => rfl
    | succ n => exact ih n

@[simp] theorem getD_negate (a : List Int) (n : Nat) :
    (negate a).getD n 0 = -a.getD n 0 := by
  unfold negate
  simp only [List.getD_eq_getElem?_getD, List.getElem?_map]
  cases a[n]? <;> simp

end Offset

theorem Cell.shift_shift (cell : Cell) (a b : List Int) :
    (cell.shift a).shift b = cell.shift (Offset.add a b) := by
  ext axis
  simp only [Cell.get_shift, Offset.getD_add]
  omega

theorem Cell.shift_shift_negate (cell : Cell) (a : List Int) :
    (cell.shift a).shift (Offset.negate a) = cell := by
  ext axis
  simp only [Cell.get_shift, Offset.getD_negate]
  omega

namespace Mapping

variable {m : Mapping}

theorem translate_translate (m : Mapping) (site : LatticeSite) (a b : List Int) (s t : Nat) :
    m.translate (m.translate site a s) b t = m.translate site (Offset.add a b) t := by
  unfold translate
  rw [wrap_shift_wrap, Cell.shift_shift]

theorem translate_negate (m : Mapping) (site : LatticeSite) (a : List Int) (s t : Nat) :
    m.translate (m.translate site a s) (Offset.negate a) t = ⟨m.wrap site.cell, t⟩ := by
  unfold translate
  rw [wrap_shift_wrap, Cell.shift_shift_negate]

theorem wrap_eq_wrap_iff {c d : Cell} :
    m.wrap c = m.wrap d ↔ ∀ axis, (m.extents.get axis : Int) ∣ c.get axis - d.get axis := by
  constructor
  · intro h axis
    have haxis := congrArg (Triple.get · axis) h
    rw [get_wrap, get_wrap] at haxis
    exact Int.dvd_of_emod_eq_zero (Int.emod_eq_emod_iff_emod_sub_eq_zero.1 haxis)
  · intro h
    ext axis
    rw [get_wrap, get_wrap]
    exact Int.emod_eq_emod_iff_emod_sub_eq_zero.2 (Int.emod_eq_zero_of_dvd (h axis))

theorem translate_eq_translate_iff (h : m.Valid) {site : LatticeSite} {a b : List Int}
    {s : Nat} :
    m.translate site a s = m.translate site b s ↔ ∀ axis : Axis, axis.number < m.dimension →
      (m.extents.get axis : Int) ∣ a.getD axis.number 0 - b.getD axis.number 0 := by
  have hdiff (axis : Axis) : (site.cell.shift a).get axis - (site.cell.shift b).get axis =
      a.getD axis.number 0 - b.getD axis.number 0 := by
    rw [Cell.get_shift, Cell.get_shift]
    omega
  unfold translate
  rw [LatticeSite.mk.injEq, and_iff_left rfl, wrap_eq_wrap_iff]
  simp only [hdiff]
  constructor
  · exact fun hperiods axis _ => hperiods axis
  · intro hperiods axis
    rcases Nat.lt_or_ge axis.number m.dimension with hlt | hge
    · exact hperiods axis hlt
    -- An axis beyond the dimension has one cell, so every difference is a whole period.
    · rw [h.collapsed axis hge]
      exact Int.one_dvd _

end Mapping

/-- On every lattice that is accepted translations act as the offsets do, up to whole periods. One
after the other they add up, whatever slots are taken on the way; the opposite offset leads back to
the site, wrapped around; and for one slot two offsets come to the same site exactly when they
differ by a multiple of the repeat count along every axis of the lattice. -/
theorem translations_act_periodically {dimension sitesPerCell : Nat} {extents : List Nat}
    {m : Mapping} (h : Mapping.ofExtents dimension sitesPerCell extents = .ok m)
    (site : LatticeSite) (a b : List Int) :
    (∀ s t, m.translate (m.translate site a s) b t = m.translate site (Offset.add a b) t) ∧
    (∀ s, m.translate (m.translate site a s) (Offset.negate a) site.slot =
      ⟨m.wrap site.cell, site.slot⟩) ∧
    ∀ s, m.translate site a s = m.translate site b s ↔ ∀ axis : Axis, axis.number < dimension →
      (m.extents.get axis : Int) ∣ a.getD axis.number 0 - b.getD axis.number 0 := by
  obtain ⟨hvalid, rfl, -⟩ := Mapping.ofExtents_eq_ok h
  exact ⟨m.translate_translate site a b, fun s => m.translate_negate site a s site.slot,
    fun _ => Mapping.translate_eq_translate_iff hvalid⟩

/-- On a slab of three by four cells, from a cell outside of it. The slab has no third axis, so the
third component of an offset leads nowhere. -/
theorem translations_act_periodically_on_slab :
    ∃ m, Mapping.ofExtents 2 2 [3, 4] = .ok m ∧
      m.translate (m.translate ⟨⟨-1, 5, 0⟩, 1⟩ [1, 2, 9] 2) [-5] 1 = ⟨⟨1, 3, 0⟩, 1⟩ ∧
      m.translate (m.translate ⟨⟨-1, 5, 0⟩, 1⟩ [1, 2, 9] 2) [-1, -2, -9] 1 = ⟨⟨2, 1, 0⟩, 1⟩ ∧
      m.translate ⟨⟨-1, 5, 0⟩, 1⟩ [1, 2, 9] 2 = m.translate ⟨⟨-1, 5, 0⟩, 1⟩ [-5, 6] 2 ∧
      m.translate ⟨⟨-1, 5, 0⟩, 1⟩ [1, 2, 9] 2 ≠ m.translate ⟨⟨-1, 5, 0⟩, 1⟩ [-5] 2 := by
  have h : Mapping.ofExtents 2 2 [3, 4] = .ok ⟨2, 2, ⟨3, 4, 1⟩⟩ := by decide
  obtain ⟨hadd, hback, hshort⟩ :=
    translations_act_periodically h ⟨⟨-1, 5, 0⟩, 1⟩ [1, 2, 9] [-5]
  obtain ⟨-, -, hperiods⟩ := translations_act_periodically h ⟨⟨-1, 5, 0⟩, 1⟩ [1, 2, 9] [-5, 6]
  refine ⟨_, h, (hadd 2 1).trans (by decide), (hback 2).trans (by decide), ?_, ?_⟩
  · apply (hperiods 2).2
    intro axis _
    cases axis <;> decide
  · intro heq
    have hy := (hshort 2).1 heq .y (by decide)
    exact absurd hy (by decide)

end LatticeKinetics
