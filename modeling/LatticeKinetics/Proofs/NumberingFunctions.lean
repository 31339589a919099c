import LatticeKinetics.Fortran.LatticeModule
import LatticeKinetics.Proofs.SiteNumbers
import LatticeKinetics.Proofs.SourceExpressions
import Mathlib.Tactic.Ring

/-! The generated functions between sites and their numbers. Their lines are read as assignments
and carried out one after the other; what they compute is the numbering of the lattice. -/

namespace LatticeKinetics.Fortran

open Text

inductive Target where
  | scalar (name : String)
  | element (array : String) (position : Nat)
deriving DecidableEq, Repr

namespace Target

def name : Target → String
  | scalar name => name
  | element array _ => array

def render : Target → String
  | scalar name => name
  | element array position => s!"{array}({position})"

end Target

def readAssignment : List Token → Option (Target × IntExpr)
  | .word name :: .sign '=' :: ts => (readExpr ts).map fun value => (.scalar name, value)
  | .word array :: .sign '(' :: .word position :: .sign ')' :: .sign '=' :: ts =>
    match readNat? position.toList with
    | some k => (readExpr ts).map fun value => (.element array k, value)
    | none => none
  | _ => none

theorem readAssignment_render {target : Target} (htarget : isIdentifier target.name = true)
    {value : IntExpr} (hvalue : value.IsSum) :
    readAssignment (tokens (Statement.assign target.render value).render) =
      some (target, value) := by
  have htokens : tokens (Statement.assign target.render value).render =
      tokens target.render ++ .sign '=' :: tokens value.render :=
    tokens_append_between rfl rfl rfl target.render value.render
  rw [htokens]
  cases target with
  | scalar name =>
    rw [show tokens (Target.scalar name).render = _ from tokens_identifier htarget]
    simp only [readAssignment, List.cons_append, List.nil_append, hvalue.readExpr_eq,
      Option.map_some]
    rfl
  | element array position =>
    rw [show tokens (Target.element array position).render = _ from
      tokens_component htarget position]
    simp only [readAssignment, List.cons_append, List.nil_append, readNat?_toString,
      hvalue.readExpr_eq, Option.map_some]
    rfl

structure Store where
  values : String → Int
  elements : String → Nat → Int

namespace Store

def eval (s : Store) (e : IntExpr) : Int :=
  e.eval s.values s.elements

def set (s : Store) : Target → Int → Store
  | .scalar name, value => { s with values := Function.update s.values name value }
  | .element array position, value =>
    let changed := Function.update (s.elements array) position value
    { s with elements := Function.update s.elements array changed }

def assign (s : Store) (a : Target × IntExpr) : Store :=
  s.set a.1 (s.eval a.2)

def run? (s : Store) : List String → Option Store
  | [] => some s
  | line :: lines => do
    let a ← readAssignment (tokens line)
    (s.assign a).run? lines

theorem run?_assignments (s : Store) {as : List (Target × IntExpr)}
    (h : ∀ a ∈ as, isIdentifier a.1.name = true ∧ a.2.IsSum) :
    s.run? (Body.of (as.map fun a => .assign a.1.render a.2)).lines = some (as.foldl assign s) := by
  induction as generalizing s with
  | nil => rfl
  | cons a as ih =>
    obtain ⟨ha, hvalue⟩ := h a List.mem_cons_self
    change (do
      let b ← readAssignment (tokens (Statement.assign a.1.render a.2).render)
      (s.assign b).run? _) = _
    rw [readAssignment_render ha hvalue]
    exact ih (s.assign a) fun b hb => h b (List.mem_cons_of_mem _ hb)

end Store

namespace SiteNumbering

/-- The lattice as the generated code sees it: the number of sites in a cell, and how often the cell
repeats along each axis. -/
structure Describes (s : Store) (sitesPerCell : Nat) (extents : List Nat) : Prop where
  sitesPerCell : s.values "spuck" = sitesPerCell
  extents : ∀ axis : Axis,
    s.elements "system_size" (axis.number + 1) = (extents.getD axis.number 1 : Nat)

structure HoldsSite (s : Store) (site : LatticeSite) : Prop where
  cell : ∀ axis : Axis, s.elements "site" (axis.number + 1) = site.cell.get axis
  slot : s.elements "site" 4 = site.slot

section Expressions

open IntExpr

theorem isFactor_systemSize (axis : Axis) : (systemSize axis).IsFactor :=
  isFactor_component rfl (by decide) _

theorem isFactor_spuck : spuck.IsFactor :=
  isFactor_named rfl

theorem isTerm_sizes (axis : Axis) (axes : List Axis) :
    (chain multiply (systemSize axis) (axes.map systemSize)).IsTerm := by
  apply chain_induction (P := IsTerm) (fun _ _ => isTerm_multiply) (isFactor_systemSize axis).isTerm
  intro e he
  obtain ⟨other, -, rfl⟩ := List.mem_map.1 he
  exact isFactor_systemSize other

theorem isTerm_ofForwardTerm (term : ForwardTerm) : (ofForwardTerm term).IsTerm := by
  have hcell : (cellComponent term.axis).IsFactor := isFactor_component rfl (by decide) _
  have hwrapped : (modulo (cellComponent term.axis) (systemSize term.axis)).IsFactor :=
    isFactor_modulo hcell.isTerm.isSum (isFactor_systemSize term.axis).isTerm.isSum
  unfold ofForwardTerm
  cases term.stride with
  | nil => exact hwrapped.isTerm
  | cons axis axes =>
    dsimp only
    exact isTerm_multiply (isTerm_sizes axis axes) hwrapped

theorem isSum_forward (f : Formula) : (forward f).IsSum := by
  have hterms : ∀ e ∈ f.forwardTerms.map ofForwardTerm, e.IsTerm := by
    intro e he
    obtain ⟨term, -, rfl⟩ := List.mem_map.1 he
    exact isTerm_ofForwardTerm term
  unfold forward
  refine isSum_add (isTerm_multiply isFactor_spuck.isTerm (isFactor_parens ?_)).isSum
    (isFactor_component rfl (by decide) _).isTerm
  cases hall : f.forwardTerms.map ofForwardTerm with
  | nil => exact (isFactor_literal 0).isTerm.isSum
  | cons term terms =>
    rw [hall] at hterms
    apply chain_induction (P := IsSum) (fun _ _ => isSum_add) (hterms term List.mem_cons_self).isSum
    intro e he
    exact hterms e (List.mem_cons_of_mem _ he)

theorem isTerm_ofInverseTerm (term : InverseTerm) : (ofInverseTerm term).IsTerm := by
  have hcell : (named "cell").IsFactor := isFactor_named rfl
  obtain ⟨axis, divisor, modulus⟩ := term
  have hquotient : (ofInverseTerm ⟨axis, divisor, none⟩).IsTerm := by
    unfold ofInverseTerm
    dsimp only
    split
    · exact hcell.isTerm
    · exact isTerm_divide hcell.isTerm (isFactor_systemSize _)
    · exact isTerm_divide hcell.isTerm (isFactor_parens (isTerm_sizes _ _).isSum)
  cases modulus with
  | none => exact hquotient
  | some size =>
    exact (isFactor_modulo hquotient.isSum (isFactor_systemSize size).isTerm.isSum).isTerm

theorem isSum_previous : (subtract (named "n") (literal 1)).IsSum :=
  isSum_subtract (isFactor_named rfl).isTerm.isSum (isFactor_literal 1).isTerm

theorem isSum_cellOfIndex : cellOfIndex.IsSum :=
  (isTerm_divide (isFactor_parens isSum_previous).isTerm isFactor_spuck).isSum

theorem isSum_slotOfIndex : slotOfIndex.IsSum :=
  isSum_add (isFactor_modulo isSum_previous isFactor_spuck.isTerm.isSum).isTerm.isSum
    (isFactor_literal 1).isTerm

end Expressions

section Values

variable {m : Mapping} {s : Store}

theorem cellNumber_cast (hv : m.Valid) (cell : Cell) : (m.cellNumber cell : Int) =
    (m.wrap cell).get .x +
      m.extents.get .x * ((m.wrap cell).get .y + m.extents.get .y * (m.wrap cell).get .z) := by
  have hx := (Mapping.wrap_bounds hv cell .x).1
  have hy := (Mapping.wrap_bounds hv cell .y).1
  have hz := (Mapping.wrap_bounds hv cell .z).1
  simp only [Triple.get] at hx hy hz ⊢
  unfold Mapping.cellNumber
  push_cast [Int.toNat_of_nonneg hx, Int.toNat_of_nonneg hy, Int.toNat_of_nonneg hz]
  rfl

theorem eval_forward (hv : m.Valid) (hspuck : s.values "spuck" = m.sitesPerCell)
    (hsize : ∀ axis : Axis, s.elements "system_size" (axis.number + 1) = m.extents.get axis)
    {site : LatticeSite} (hsite : HoldsSite s site) :
    s.eval (.forward ⟨m.dimension, m.sitesPerCell⟩) =
      m.sitesPerCell * m.cellNumber site.cell + site.slot := by
  have hwrap (axis : Axis) : (s.elements "site" (axis.number + 1)).fmod
      (s.elements "system_size" (axis.number + 1)) = (m.wrap site.cell).get axis := by
    rw [hsite.cell, hsize, Int.fmod_eq_emod_of_nonneg _ (by omega), Mapping.get_wrap]
  have hx : (s.elements "site" 1).fmod (s.elements "system_size" 1) = _ := hwrap .x
  have hy : (s.elements "site" 2).fmod (s.elements "system_size" 2) = _ := hwrap .y
  have hz : (s.elements "site" 3).fmod (s.elements "system_size" 3) = _ := hwrap .z
  have hsizex : s.elements "system_size" 1 = _ := hsize .x
  have hsizey : s.elements "system_size" 2 = _ := hsize .y
  have hflat (axis : Axis) (haxis : m.dimension ≤ axis.number) :
      (m.wrap site.cell).get axis = 0 :=
    Mapping.wrap_collapsed hv site.cell haxis
  have hdimension : m.dimension = 1 ∨ m.dimension = 2 ∨ m.dimension = 3 := by
    have := hv.dimension
    omega
  rw [cellNumber_cast hv]
  rcases hdimension with hd | hd | hd
  · rw [hflat .y (by rw [hd]; decide), hflat .z (by rw [hd]; decide), hd]
    change s.values "spuck" * (s.elements "site" 1).fmod (s.elements "system_size" 1) +
      s.elements "site" 4 = _
    rw [hspuck, hx, hsite.slot]
    ring
  · rw [hflat .z (by rw [hd]; decide), hd]
    change s.values "spuck" * ((s.elements "site" 1).fmod (s.elements "system_size" 1) +
      s.elements "system_size" 1 * (s.elements "site" 2).fmod (s.elements "system_size" 2)) +
      s.elements "site" 4 = _
    rw [hspuck, hx, hy, hsizex, hsite.slot]
    ring
  · rw [hd]
    change s.values "spuck" * ((s.elements "site" 1).fmod (s.elements "system_size" 1) +
      s.elements "system_size" 1 * (s.elements "site" 2).fmod (s.elements "system_size" 2) +
      s.elements "system_size" 1 * s.elements "system_size" 2 *
        (s.elements "site" 3).fmod (s.elements "system_size" 3)) + s.elements "site" 4 = _
    rw [hspuck, hx, hy, hz, hsizex, hsizey, hsite.slot]
    ring

end Values

def coordAssignments (f : Formula) : List (Target × IntExpr) :=
  [(.scalar "cell", .cellOfIndex), (.element "site" 4, .slotOfIndex)] ++
    (inverseAssignments f).map fun a => (.element "site" a.position, a.value)

theorem run?_toIndex (s : Store) (f : Formula) :
    s.run? (LatticeModule.toIndex f).body.lines =
      some (s.set (.scalar "n") (s.eval (.forward f))) := by
  have has : ∀ a ∈ [(Target.scalar "n", IntExpr.forward f)],
      isIdentifier a.1.name = true ∧ a.2.IsSum := by
    intro a ha
    obtain rfl := List.mem_singleton.1 ha
    exact ⟨show isIdentifier "n" = true by decide, isSum_forward f⟩
  exact s.run?_assignments has

theorem run?_toCoord (s : Store) (f : Formula) :
    s.run? (LatticeModule.toCoord f).body.lines =
      some ((coordAssignments f).foldl Store.assign s) := by
  have has : ∀ a ∈ coordAssignments f, isIdentifier a.1.name = true ∧ a.2.IsSum := by
    intro a ha
    rcases List.mem_append.1 ha with ha | ha
    · rcases List.mem_pair.1 ha with rfl | rfl
      · exact ⟨rfl, isSum_cellOfIndex⟩
      · exact ⟨rfl, isSum_slotOfIndex⟩
    · obtain ⟨b, hb, rfl⟩ := List.mem_map.1 ha
      refine ⟨show isIdentifier "site" = true by decide, ?_⟩
      rcases List.mem_append.1 hb with hb | hb
      · obtain ⟨term, -, rfl⟩ := List.mem_map.1 hb
        exact (isTerm_ofInverseTerm term).isSum
      · obtain ⟨axis, -, rfl⟩ := List.mem_map.1 hb
        exact (IntExpr.isFactor_literal 0).isTerm.isSum
  have hlines : (LatticeModule.toCoord f).body =
      Body.of ((coordAssignments f).map fun a => .assign a.1.render a.2) := by
    unfold LatticeModule.toCoord coordAssignments
    rw [List.map_append, List.map_map]
    rfl
  rw [hlines]
  exact s.run?_assignments has

theorem holdsSite_coordAssignments {m : Mapping} {s : Store} (hv : m.Valid)
    (hspuck : s.values "spuck" = m.sitesPerCell)
    (hsize : ∀ axis : Axis, s.elements "system_size" (axis.number + 1) = m.extents.get axis)
    {index : Nat} (hn : s.values "n" = index) (hindex : 1 ≤ index ∧ index ≤ m.volume) :
    HoldsSite ((coordAssignments ⟨m.dimension, m.sitesPerCell⟩).foldl Store.assign s)
      ⟨m.cellAt ((index - 1) / m.sitesPerCell), (index - 1) % m.sitesPerCell + 1⟩ := by
  have hsizex : s.elements "system_size" 1 = (m.extents.x : Int) := hsize .x
  have hsizey : s.elements "system_size" 2 = (m.extents.y : Int) := hsize .y
  have hprevious : s.values "n" - 1 = ((index - 1 : Nat) : Int) := by omega
  have hslot : (s.values "n" - 1).fmod (s.values "spuck") + 1 =
      ((index - 1) % m.sitesPerCell + 1 : Nat) := by
    rw [hprevious, hspuck, Nat.cast_succ, Int.ofNat_fmod]
  have hcell : (s.values "n" - 1).tdiv (s.values "spuck") =
      ((index - 1) / m.sitesPerCell : Nat) := by
    rw [hprevious, hspuck, Int.ofNat_tdiv]
  have hnumber : (index - 1) / m.sitesPerCell < m.cellCount := by
    apply Nat.div_lt_of_lt_mul
    have := hindex.2
    unfold Mapping.volume at this
    omega
  generalize (index - 1) / m.sitesPerCell = number at hcell hnumber ⊢
  -- The axes along which the lattice does not repeat are assigned zero.
  have hflat (axis : Axis) (haxis : m.dimension ≤ axis.number) :
      (0 : Int) = (m.cellAt number).get axis :=
    (Mapping.cellAt_collapsed hv hnumber haxis).symm
  have hmodx : ((number : Nat) : Int).fmod m.extents.x = (number % m.extents.x : Nat) :=
    (Int.ofNat_fmod _ _).symm
  have hdivx : ((number : Nat) : Int).tdiv m.extents.x = (number / m.extents.x : Nat) :=
    (Int.ofNat_tdiv _ _).symm
  unfold Mapping.cellCount at hnumber
  have hdimension : m.dimension = 1 ∨ m.dimension = 2 ∨ m.dimension = 3 := by
    have := hv.dimension
    omega
  rcases hdimension with hd | hd | hd
  · have hy : m.extents.y = 1 := hv.collapsed .y (by rw [hd]; decide)
    have hz : m.extents.z = 1 := hv.collapsed .z (by rw [hd]; decide)
    rw [hd] at hflat ⊢
    refine ⟨?_, hslot⟩
    intro axis
    cases axis with
    | x =>
      change (s.values "n" - 1).tdiv (s.values "spuck") = (number % m.extents.x : Nat)
      rw [hcell, Nat.mod_eq_of_lt (by simpa [hy, hz] using hnumber)]
    | y => exact hflat .y (by decide)
    | z => exact hflat .z (by decide)
  · have hz : m.extents.z = 1 := hv.collapsed .z (by rw [hd]; decide)
    rw [hd] at hflat ⊢
    refine ⟨?_, hslot⟩
    intro axis
    cases axis with
    | x =>
      change ((s.values "n" - 1).tdiv (s.values "spuck")).fmod (s.elements "system_size" 1) =
        (number % m.extents.x : Nat)
      rw [hcell, hsizex, hmodx]
    | y =>
      change ((s.values "n" - 1).tdiv (s.values "spuck")).tdiv (s.elements "system_size" 1) =
        (number / m.extents.x % m.extents.y : Nat)
      rw [hz, Nat.mul_one] at hnumber
      rw [hcell, hsizex, hdivx, Nat.mod_eq_of_lt (Nat.div_lt_of_lt_mul hnumber)]
    | z => exact hflat .z (by decide)
  · rw [hd]
    refine ⟨?_, hslot⟩
    intro axis
    cases axis with
    | x =>
      change ((s.values "n" - 1).tdiv (s.values "spuck")).fmod (s.elements "system_size" 1) =
        (number % m.extents.x : Nat)
      rw [hcell, hsizex, hmodx]
    | y =>
      change (((s.values "n" - 1).tdiv (s.values "spuck")).tdiv
        (s.elements "system_size" 1)).fmod (s.elements "system_size" 2) =
        (number / m.extents.x % m.extents.y : Nat)
      rw [hcell, hsizex, hsizey, hdivx, Int.ofNat_fmod]
    | z =>
      change ((s.values "n" - 1).tdiv (s.values "spuck")).tdiv
        (s.elements "system_size" 1 * s.elements "system_size" 2) =
        (number / (m.extents.x * m.extents.y) : Nat)
      rw [hcell, hsizex, hsizey, Int.ofNat_tdiv, Nat.cast_mul]

end SiteNumbering

open SiteNumbering in
/-- For all repeat counts that are accepted, the lines of the generated functions compute the
numbering of the lattice: the one gives the number of every site, the cell of which may lie outside
of the system, and the other the site of every number up to the volume. -/
theorem generated_functions_compute_numbering {dimension sitesPerCell : Nat} {extents : List Nat}
    {m : Mapping} (h : Mapping.ofExtents dimension sitesPerCell extents = .ok m) :
    ∃ f, Formula.ofCell dimension sitesPerCell = .ok f ∧
      (∀ s site, Describes s sitesPerCell extents → HoldsSite s site →
        1 ≤ site.slot ∧ site.slot ≤ sitesPerCell →
        ∃ index result, m.toIndex site = .ok index ∧
          s.run? (LatticeModule.toIndex f).body.lines = some result ∧
          result.values "n" = index) ∧
      ∀ s index, Describes s sitesPerCell extents → s.values "n" = (index : Nat) →
        1 ≤ index ∧ index ≤ m.volume →
        ∃ site result, m.siteAt index = .ok site ∧
          s.run? (LatticeModule.toCoord f).body.lines = some result ∧ HoldsSite result site := by
  obtain ⟨hv, rfl, rfl⟩ := Mapping.ofExtents_eq_ok h
  have hextents := Mapping.extents_of_ofExtents h
  have hsize (s : Store) (hs : Describes s m.sitesPerCell extents) (axis : Axis) :
      s.elements "system_size" (axis.number + 1) = m.extents.get axis := by
    rw [hs.extents, hextents, Triple.ofList, Triple.get_ofAxes]
  have hcell : checkCell m.dimension m.sitesPerCell = .ok () := by
    have hdimension := hv.dimension
    have hpositive := hv.sitesPerCell
    rw [checkCell, if_neg (by omega), if_neg (by omega)]
  refine ⟨⟨m.dimension, m.sitesPerCell⟩, ?_, ?_, ?_⟩
  · rw [Formula.ofCell, hcell]
    rfl
  · intro s site hs hsite hslot
    refine ⟨_, _, Mapping.toIndex_eq_ok_iff.2 ⟨hslot, rfl⟩, run?_toIndex s _, ?_⟩
    change Function.update s.values "n" _ "n" = _
    rw [Function.update_self, eval_forward hv hs.sitesPerCell (hsize s hs) hsite]
    push_cast
    rfl
  · intro s index hs hn hindex
    exact ⟨_, _, Mapping.siteAt_eq_ok_iff.2 ⟨hindex, rfl⟩, run?_toCoord s _,
      holdsSite_coordAssignments hv hs.sitesPerCell (hsize s hs) hn hindex⟩

/-- The cell to the left of the first column and two rows beyond the last, and back. -/
theorem generated_functions_compute_numbering_of_slab :
    let cellwise : Store :=
      { values := fun _ => 3
        elements := fun array k =>
          if array = "site" then [-1, 7, 9, 2].getD (k - 1) 0 else [4, 5, 1].getD (k - 1) 0 }
    let numbered : Store := { cellwise with values := fun name => if name = "n" then 35 else 3 }
    ∃ f, Formula.ofCell 2 3 = .ok f ∧
      (∃ result, cellwise.run? (LatticeModule.toIndex f).body.lines = some result ∧
        result.values "n" = 35) ∧
      ∃ result, numbered.run? (LatticeModule.toCoord f).body.lines = some result ∧
        [1, 2, 3, 4].map (result.elements "site") = [3, 2, 0, 2] := by
  intro cellwise numbered
  have h : Mapping.ofExtents 2 3 [4, 5] = .ok ⟨2, 3, ⟨4, 5, 1⟩⟩ := by decide +kernel
  obtain ⟨f, hf, hindex, hcoord⟩ := generated_functions_compute_numbering h
  refine ⟨f, hf, ?_, ?_⟩
  · have hdescribes : SiteNumbering.Describes cellwise 3 [4, 5] := by
      refine ⟨rfl, ?_⟩
      intro axis
      cases axis <;> rfl
    have hsite : SiteNumbering.HoldsSite cellwise ⟨⟨-1, 7, 9⟩, 2⟩ := by
      refine ⟨?_, rfl⟩
      intro axis
      cases axis <;> rfl
    obtain ⟨index, result, hindex, hrun, hn⟩ := hindex _ _ hdescribes hsite (by decide)
    obtain rfl : 35 = index := Except.ok.inj hindex
    exact ⟨result, hrun, hn⟩
  · have hdescribes : SiteNumbering.Describes numbered 3 [4, 5] := by
      refine ⟨rfl, ?_⟩
      intro axis
      cases axis <;> rfl
    obtain ⟨site, result, hsite, hrun, hholds⟩ := hcoord _ 35 hdescribes rfl (by decide)
    obtain rfl : ⟨⟨3, 2, 0⟩, 2⟩ = site := Except.ok.inj hsite
    refine ⟨result, hrun, ?_⟩
    have hx := hholds.cell .x
    have hy := hholds.cell .y
    have hz := hholds.cell .z
    have hslot := hholds.slot
    simp only [Axis.number, Triple.get] at hx hy hz hslot
    simp [hx, hy, hz, hslot]

end LatticeKinetics.Fortran
