import LatticeKinetics.Kernel
import LatticeKinetics.Proofs.TreeProcedures

/-! Site expressions of the generated code, evaluated from their text. An array constructor gives a
component for each sum between its commas, and arrays are added component by component. What an
expression gives is the site at its coordinate, as the kernel resolves it. -/

namespace LatticeKinetics

open Text Fortran

def LatticeSite.vector (s : LatticeSite) : List Int :=
  [s.cell.x, s.cell.y, s.cell.z, s.slot]

namespace Fortran

/-- The names that an expression can use. -/
structure Bindings where
  array? : String → Option (List Int)
  constant? : String → Option Int

namespace Bindings

def operand? (b : Bindings) (text : String) : Option Int :=
  match readNat? text.toList with
  | some n => some n
  | none => b.constant? text

/-- The components of an array constructor, up to its closing bracket. The sum is that of the
operands which have been read of the first one. -/
def components? (b : Bindings) (sum : Option Int) : List Token → Option (List Int × List Token)
  | .sign '+' :: .word text :: ts => do
    b.components? (some (sum.getD 0 + (← b.operand? text))) ts
  | .sign '-' :: .word text :: ts => do
    b.components? (some (sum.getD 0 - (← b.operand? text))) ts
  | .sign ',' :: ts => do
    let value ← sum
    let (rest, ts) ← b.components? none ts
    pure (value :: rest, ts)
  | .sign '/' :: .sign ')' :: ts => sum.map fun value => ([value], ts)
  | .word text :: ts =>
    if sum.isSome then none
    else do b.components? (some (← b.operand? text)) ts
  | _ => none

def term? (b : Bindings) : List Token → Option (List Int × List Token)
  | .sign '(' :: .sign '/' :: ts => b.components? none ts
  | .word name :: ts => (b.array? name).map fun values => (values, ts)
  | _ => none

def evaluate? (b : Bindings) (text : String) : Option (List Int) := do
  let (first, ts) ← b.term? (tokens text)
  match ts with
  | [] => pure first
  | .sign '+' :: ts =>
    let (second, ts) ← b.term? ts
    if ts = [] ∧ first.length = second.length then pure (List.zipWith (· + ·) first second)
    else none
  | _ => none

section Evaluate

variable {b : Bindings} {ts : List Token}

theorem operand?_toString (n : Nat) : b.operand? (toString n) = some (n : Int) := by
  rw [operand?, readNat?_toString]

theorem operand?_identifier {name : String} (h : isIdentifier name = true) :
    b.operand? name = b.constant? name := by
  rw [operand?, readNat?_identifier h]

theorem components?_toString (n : Int) :
    b.components? none (tokens (toString n) ++ ts) = b.components? (some n) ts := by
  rw [tokens_toString_int]
  split
  · rename_i hn
    rw [List.singleton_append, components?, operand?_toString, Int.toNat_of_nonneg hn]
    rfl
  · rename_i hn
    rw [List.cons_append, List.singleton_append, components?, operand?_toString,
      Int.toNat_of_nonneg (by omega)]
    simp

theorem components?_comma (value : Int) :
    b.components? (some value) (.sign ',' :: ts) =
      (b.components? none ts).map fun (rest, ts) => (value :: rest, ts) := by
  rw [components?]
  cases b.components? none ts <;> rfl

theorem components?_slot {w : World} (hw : w.constant? = b.constant?) {slot : SlotShift}
    {x y z shift : Int}
    (h : ∀ name ∈ (SiteExpr.shifted x y z slot).constants, isIdentifier name = true)
    (hshift : w.slotShift? slot = some shift) :
    b.components? none (tokens slot.render ++ ts) = b.components? (some shift) ts := by
  cases slot with
  | same =>
    obtain rfl : 0 = shift := Option.some.inj hshift
    exact components?_toString 0
  | between target origin =>
    have htarget : isIdentifier target = true := h target (by simp [SiteExpr.constants])
    have horigin : isIdentifier origin = true := h origin (by simp [SiteExpr.constants])
    simp only [World.slotShift?, hw, Option.bind_eq_bind, Option.bind_eq_some_iff,
      Option.pure_def, Option.some.injEq] at hshift
    obtain ⟨t, ht, o, ho, rfl⟩ := hshift
    rw [tokens_slot_between htarget horigin]
    simp [components?, operand?_identifier htarget, operand?_identifier horigin, ht, ho]

theorem evaluate?_render {w : World} (hw : w.constant? = b.constant?) {argument : String}
    (hargument : isIdentifier argument = true) {here there : LatticeSite}
    (harray : b.array? argument = some here.vector) (hhere : w.site = ⟨here.cell, here.slot⟩)
    {place : SiteExpr} (h : ∀ name ∈ place.constants, isIdentifier name = true)
    (hplace : w.place? place = some ⟨there.cell, there.slot⟩) :
    b.evaluate? (place.render argument) = some there.vector := by
  cases place with
  | here =>
    rw [World.place?, hhere] at hplace
    have hsame : here.vector = there.vector := by
      simp only [Option.some.injEq, SiteVector.mk.injEq] at hplace
      rw [LatticeSite.vector, LatticeSite.vector, hplace.1, hplace.2]
    rw [SiteExpr.render, evaluate?, tokens_identifier hargument, term?, harray, hsame]
    rfl
  | shifted x y z slot =>
    rw [World.place?, Option.map_eq_some_iff] at hplace
    obtain ⟨shift, hshift, hthere⟩ := hplace
    have hconstructor : b.components? none (tokens (toString x) ++ .sign ',' ::
        (tokens (toString y) ++ .sign ',' :: (tokens (toString z) ++ .sign ',' ::
          (tokens slot.render ++ [.sign '/', .sign ')'])))) = some ([x, y, z, shift], []) := by
      rw [components?_toString, components?_comma, components?_toString, components?_comma,
        components?_toString, components?_comma, components?_slot hw h hshift]
      rfl
    have hsum : List.zipWith (· + ·) here.vector [x, y, z, shift] = there.vector := by
      rw [hhere] at hthere
      obtain ⟨hcell, hslot⟩ := SiteVector.mk.inj hthere
      rw [LatticeSite.vector, LatticeSite.vector, ← hcell, ← hslot]
      rfl
    rw [evaluate?, tokens_shifted hargument, term?, harray, ← hsum]
    simp only [Option.map_some, Option.bind_eq_bind, Option.bind_some, term?, hconstructor]
    rfl

end Evaluate

end Bindings

end Fortran

/-! ### Sites -/

/-- A kernel leads from the number of a site to that of the site at the coordinate, also when the
cells given are not those of the system but stand for them. -/
theorem Kernel.resolve_toIndex {m : Model} {p : Plan} {extents : List Nat} {k : Kernel}
    (hk : Kernel.ofExtents m p extents = .ok k) {slot : Nat} (hlow : 1 ≤ slot)
    (hhigh : slot ≤ m.sitesPerCell) {coord : Coordinate} {there : Nat}
    (hthere : m.coordIndex coord = .ok there) (cell : Cell) :
    ∃ n r, k.mapping.toIndex ⟨cell, slot⟩ = .ok n ∧
      k.mapping.toIndex ⟨cell.shift coord.offset, there⟩ = .ok r ∧ k.resolve n coord = .ok r := by
  unfold Kernel.ofExtents at hk
  simp only [bind_eq_ok_iff, pure_eq_ok_iff] at hk
  obtain ⟨mapping, hmapping, rfl⟩ := hk
  obtain ⟨hvalid, -, hsites⟩ := Mapping.ofExtents_eq_ok hmapping
  obtain ⟨⟨hfirst, hlast⟩, -⟩ := Model.coordIndex_eq_ok hthere
  have hn : mapping.toIndex ⟨cell, slot⟩ = .ok _ :=
    Mapping.toIndex_eq_ok_iff.2 ⟨⟨hlow, hsites ▸ hhigh⟩, rfl⟩
  have hr : mapping.toIndex ⟨cell.shift coord.offset, there⟩ = .ok _ :=
    Mapping.toIndex_eq_ok_iff.2 ⟨⟨hfirst, hsites ▸ hlast⟩, rfl⟩
  have htarget : mapping.toIndex (mapping.translate ⟨mapping.wrap cell, slot⟩ coord.offset there) =
      mapping.toIndex ⟨cell.shift coord.offset, there⟩ := by
    rw [Mapping.translate, Mapping.wrap_shift_wrap, Mapping.toIndex_wrap]
  refine ⟨_, _, hn, hr, ?_⟩
  rw [resolve, Mapping.siteAt_of_toIndex hvalid hn, hthere]
  change (mapping.toIndex _).mapError _ = _
  rw [htarget, hr]
  rfl

/-- What the value of an expression written for the coordinate says, seen from a site: it is the
site in the cell the coordinate leads to, of the coordinate's site type, and a kernel of any extents
resolves the coordinate to it. -/
structure Model.Designates (m : Model) (coord : Coordinate) (here : LatticeSite)
    (value? : Option (List Int)) (there : LatticeSite) : Prop where
  value : value? = some there.vector
  cell : there.cell = here.cell.shift coord.offset
  slot : m.coordIndex coord = .ok there.slot
  range : 1 ≤ there.slot ∧ there.slot ≤ m.sitesPerCell
  resolved : ∀ p extents k, Kernel.ofExtents m p extents = .ok k → ∃ n r,
    k.mapping.toIndex here = .ok n ∧ k.mapping.toIndex there = .ok r ∧ k.resolve n coord = .ok r

theorem Model.Rules.designates {m : Model} (h : m.Rules) {bindings : Bindings}
    (hbinds : m.BindsSites bindings.constant?) {argument : String}
    (hargument : isIdentifier argument = true) {layer site : String} {here : LatticeSite}
    (hhere : m.siteIndex layer site = .ok here.slot)
    (harray : bindings.array? argument = some here.vector) {coord : Coordinate}
    (hcoord : m.Reaches coord) :
    ∃ there, m.Designates coord here (bindings.evaluate?
      ((SiteExpr.ofCoordinate coord (siteConstant layer site)).render argument)) there := by
  obtain ⟨there, hthere⟩ := h.exists_coordIndex hcoord
  have hrange := (coordIndex_eq_ok hthere).1
  have hslot : m.coordIndex ⟨[], site, layer⟩ = .ok here.slot := hhere
  obtain ⟨hlow, hhigh⟩ := (coordIndex_eq_ok hslot).1
  let w : World := ⟨bindings.constant?, fun _ => 0, ⟨here.cell, here.slot⟩⟩
  have hbinds : m.BindsSites w.constant? := hbinds
  have hplace := hbinds.place?_ofCoordinate hhere rfl hthere
  have hnames := isIdentifier_of_mem_ofCoordinate h hhere hcoord
  refine ⟨⟨here.cell.shift coord.offset, there⟩, ?_, rfl, hthere, hrange, ?_⟩
  · exact Bindings.evaluate?_render rfl hargument harray rfl hnames hplace
  · intro p extents k hk
    exact Kernel.resolve_toIndex hk hlow hhigh hthere here.cell

/-- In every model that was built the constants of site types can have their indices as values, and
whenever they do, the expression for a coordinate as seen from a site is the site at the coordinate.
-/
theorem site_expressions_designate_sites {d : Draft} {m : Model} (hd : d.build = .ok m) :
    m.BindsSites m.constant? ∧
      ∀ bindings : Bindings, m.BindsSites bindings.constant? →
        ∀ argument, isIdentifier argument = true →
          ∀ layer site (here : LatticeSite), m.siteIndex layer site = .ok here.slot →
            bindings.array? argument = some here.vector →
              ∀ coord, m.Reaches coord → ∃ there, m.Designates coord here (bindings.evaluate?
                ((SiteExpr.ofCoordinate coord (Model.siteConstant layer site)).render argument))
                there := by
  obtain ⟨hrules, -⟩ := Draft.build_eq_ok hd
  refine ⟨hrules.bindsSites, ?_⟩
  intro bindings hbinds argument hargument layer site here hhere harray coord hcoord
  exact hrules.designates hbinds hargument hhere harray hcoord

/-- From a site of the upper layer to one of the lower layer, across the boundary of the system. -/
theorem site_expression_designates_lower_site :
    ∃ m p k, Samples.twoLayerChain.build = .ok m ∧ m.compile = .ok p ∧
      Kernel.ofExtents m p [3] = .ok k ∧ k.resolve 2 ⟨[-1], "a", "bottom"⟩ = .ok 5 ∧
      m.Designates ⟨[-1], "a", "bottom"⟩ ⟨⟨0, 0, 0⟩, 2⟩
        ((Bindings.mk (fun name => if name = "site" then some [0, 0, 0, 2] else none)
          m.constant?).evaluate? "site + (/-1, 0, 0, bottom_a - top_t/)")
        ⟨⟨-1, 0, 0⟩, 1⟩ := by
  have h : (do
      let m ← Samples.twoLayerChain.build.toOption
      let p ← m.compile.toOption
      let k ← (Kernel.ofExtents m p [3]).toOption
      guard (k.resolve 2 ⟨[-1], "a", "bottom"⟩ = .ok 5 ∧ m.dimension = 1 ∧
        m.siteIndex "top" "t" = .ok 2 ∧ m.siteIndex "bottom" "a" = .ok 1 ∧
        ("bottom", "a") ∈ m.siteTypes)) = some () := by
    decide +kernel
  simp only [Option.bind_eq_bind, Option.bind_eq_some_iff, toOption_eq_some_iff,
    Option.guard_eq_some'] at h
  obtain ⟨m, hm, p, hp, k, hk, hresolve, hdimension, htop, hbottom, htype⟩ := h
  obtain ⟨hbinds, hsites⟩ := site_expressions_designate_sites hm
  obtain ⟨⟨cell, slot⟩, hthere⟩ := hsites
    ⟨fun name => if name = "site" then some [0, 0, 0, 2] else none, m.constant?⟩ hbinds "site" rfl
    "top" "t" ⟨⟨0, 0, 0⟩, 2⟩ htop rfl ⟨[-1], "a", "bottom"⟩ ⟨htype, hdimension.symm⟩
  obtain rfl : cell = ⟨-1, 0, 0⟩ := hthere.cell
  obtain rfl : slot = 1 := Except.ok.inj (hthere.slot.symm.trans hbottom)
  exact ⟨m, p, k, hm, hp, hk, hresolve, hthere⟩

end LatticeKinetics
