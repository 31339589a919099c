import LatticeKinetics.Kernel
import LatticeKinetics.Proofs.LatticeMapping
import LatticeKinetics.Proofs.PlanLookup

/-! Where coordinates lead on the lattice of a kernel. Every declared coordinate leads from every
site to a site of its type, and looking at a process from one of its conditions or from its anchor
are two views of the same sites. -/

namespace LatticeKinetics

/-- A kernel for a plan that was compiled from its model, on a lattice that was accepted. -/
structure Kernel.Built (k : Kernel) (frames : List Frame) : Prop where
  rules : k.model.Rules
  framed : k.model.frames = .ok frames
  plan : k.plan.CompiledFrom k.model frames
  mapping : k.mapping.Valid
  sitesPerCell : k.mapping.sitesPerCell = k.model.sitesPerCell

theorem Kernel.ofExtents_eq_ok {d : Draft} {m : Model} {p : Plan} {extents : List Nat}
    {k : Kernel} (hd : d.build = .ok m) (hp : m.compile = .ok p)
    (hk : Kernel.ofExtents m p extents = .ok k) :
    k.model = m ∧ k.plan = p ∧ ∃ frames, k.Built frames := by
  unfold Kernel.ofExtents at hk
  simp only [bind_eq_ok_iff, pure_eq_ok_iff] at hk
  obtain ⟨mapping, hmapping, rfl⟩ := hk
  obtain ⟨hvalid, -, hsites⟩ := Mapping.ofExtents_eq_ok hmapping
  obtain ⟨frames, hframes, hplan⟩ := Model.compile_eq_ok hp
  exact ⟨rfl, rfl, frames, (Draft.build_eq_ok hd).1, hframes, hplan, hvalid, hsites⟩

theorem Cell.shift_shift_sub (cell : Cell) {a b : List Int} (h : a.length = b.length) :
    (cell.shift a).shift (List.zipWith (· - ·) b a) = cell.shift b := by
  apply Triple.ext_get
  intro axis
  have hget : (List.zipWith (· - ·) b a).getD axis.number 0 =
      b.getD axis.number 0 - a.getD axis.number 0 := by
    simp only [List.getD_eq_getElem?_getD, List.getElem?_zipWith]
    by_cases hlt : axis.number < b.length
    · rw [List.getElem?_eq_getElem hlt, List.getElem?_eq_getElem (h ▸ hlt)]
      rfl
    · rw [List.getElem?_eq_none (by omega), List.getElem?_eq_none (by omega)]
      rfl
  rw [Cell.get_shift, Cell.get_shift, Cell.get_shift, hget]
  omega

namespace Coordinate

private theorem zipWith_sub_self (xs : List Int) :
    List.zipWith (· - ·) xs xs = List.replicate xs.length 0 := by
  rw [List.zipWith_self]
  simp

private theorem zipWith_sub_zero (xs : List Int) :
    List.zipWith (· - ·) xs (List.replicate xs.length 0) = xs := by
  induction xs with
  | nil => rfl
  | cons x xs ih => simp [ih, List.replicate_succ]

private theorem zipWith_zero_sub_zero_sub (xs : List Int) :
    List.zipWith (· - ·) (List.replicate xs.length 0)
      (List.zipWith (· - ·) (List.replicate xs.length 0) xs) = xs := by
  induction xs with
  | nil => rfl
  | cons x xs ih => simp [ih, List.replicate_succ]

theorem displacement_of_origin {c origin : Coordinate}
    (h : origin.offset = List.replicate c.offset.length 0) : origin.displacement c = c := by
  unfold displacement
  rw [h, zipWith_sub_zero]
  rfl

theorem offset_displacement_self (c : Coordinate) :
    (c.displacement c).offset = List.replicate c.offset.length 0 :=
  zipWith_sub_self c.offset

theorem displacement_of_displacement {c origin : Coordinate}
    (h : origin.offset = List.replicate c.offset.length 0) :
    (c.displacement origin).displacement (c.displacement c) = c := by
  obtain ⟨offset, site, layer⟩ := c
  simp only [displacement, withOffset] at h ⊢
  rw [h, zipWith_sub_self, zipWith_zero_sub_zero_sub]

end Coordinate

namespace Kernel

/-- The site at a coordinate where there is one, as a number without a failure around it. -/
def place (k : Kernel) (origin : Nat) (coord : Coordinate) : Nat :=
  (k.resolve origin coord).toOption.getD 0

/-- The site is of the coordinate's site type. -/
def OnType (k : Kernel) (index : Nat) (coord : Coordinate) : Prop :=
  ∃ type, k.siteType index = .ok type ∧ type.layer = coord.layer ∧ type.site = coord.site

instance (k : Kernel) (index : Nat) (coord : Coordinate) : Decidable (k.OnType index coord) :=
  match h : k.siteType index with
  | .error _ => .isFalse fun ⟨_, htype, _⟩ => by simp [h] at htype
  | .ok type => decidable_of_iff (type.layer = coord.layer ∧ type.site = coord.site)
      ⟨fun hnames => ⟨type, h, hnames⟩, fun ⟨_, htype, hnames⟩ =>
        Except.ok.inj (h.symm.trans htype) ▸ hnames⟩

theorem mem_sites {k : Kernel} {index : Nat} :
    index ∈ k.sites ↔ 1 ≤ index ∧ index ≤ k.mapping.volume := by
  simp only [sites, List.mem_range'_1]
  omega

namespace Built

variable {k : Kernel} {frames : List Frame}

theorem exists_siteAt {index : Nat} (h : index ∈ k.sites) :
    ∃ site, k.mapping.siteAt index = .ok site :=
  ⟨_, Mapping.siteAt_eq_ok_iff.2 ⟨mem_sites.1 h, rfl⟩⟩

theorem mem_sites_of_siteAt {index : Nat} {site : LatticeSite}
    (h : k.mapping.siteAt index = .ok site) : index ∈ k.sites :=
  mem_sites.2 (Mapping.siteAt_eq_ok_iff.1 h).1

theorem siteAt_inj (hb : k.Built frames) {i j : Nat} {site : LatticeSite}
    (hi : k.mapping.siteAt i = .ok site) (hj : k.mapping.siteAt j = .ok site) : i = j := by
  have hi' := (Mapping.siteAt_eq_ok hb.mapping hi).1
  have hj' := (Mapping.siteAt_eq_ok hb.mapping hj).1
  exact Except.ok.inj (hi'.symm.trans hj')

theorem resolve_of_siteAt (hb : k.Built frames) {origin slot : Nat} {site : LatticeSite}
    {coord : Coordinate} (hs : k.mapping.siteAt origin = .ok site)
    (hc : k.model.coordIndex coord = .ok slot) :
    k.resolve origin coord = .ok (k.place origin coord) ∧
      k.mapping.siteAt (k.place origin coord) =
        .ok ⟨k.mapping.wrap (site.cell.shift coord.offset), slot⟩ := by
  have hslot := (Model.coordIndex_eq_ok hc).1
  rw [← hb.sitesPerCell] at hslot
  have htarget : k.mapping.toIndex (k.mapping.translate site coord.offset slot) =
      .ok (k.mapping.sitesPerCell *
        k.mapping.cellNumber (k.mapping.translate site coord.offset slot).cell + slot) :=
    Mapping.toIndex_eq_ok_iff.2 ⟨hslot, rfl⟩
  have hresolve : k.resolve origin coord =
      (k.mapping.toIndex (k.mapping.translate site coord.offset slot)).mapError .lattice := by
    unfold resolve
    rw [hs, hc]
    rfl
  rw [htarget] at hresolve
  have hplace : k.place origin coord = k.mapping.sitesPerCell *
      k.mapping.cellNumber (k.mapping.translate site coord.offset slot).cell + slot := by
    unfold place
    rw [hresolve]
    rfl
  refine ⟨by rw [hplace, hresolve]; rfl, ?_⟩
  rw [hplace, Mapping.siteAt_of_toIndex hb.mapping htarget]
  simp [Mapping.translate]

theorem resolve_eq_ok (hb : k.Built frames) {origin : Nat} {coord : Coordinate}
    (ho : origin ∈ k.sites) (hc : k.model.HasSiteType coord) :
    k.resolve origin coord = .ok (k.place origin coord) := by
  obtain ⟨site, hs⟩ := exists_siteAt ho
  obtain ⟨slot, hslot⟩ := Model.exists_coordIndex_eq_ok hc
  exact (hb.resolve_of_siteAt hs hslot).1

theorem place_mem_sites (hb : k.Built frames) {origin : Nat} {coord : Coordinate}
    (ho : origin ∈ k.sites) (hc : k.model.HasSiteType coord) : k.place origin coord ∈ k.sites := by
  obtain ⟨site, hs⟩ := exists_siteAt ho
  obtain ⟨slot, hslot⟩ := Model.exists_coordIndex_eq_ok hc
  exact mem_sites_of_siteAt (hb.resolve_of_siteAt hs hslot).2

theorem siteType_eq (hb : k.Built frames) {index : Nat} {site : LatticeSite}
    (hs : k.mapping.siteAt index = .ok site) :
    ∃ s ∈ k.model.siteConstants, k.siteType index = .ok s ∧
      k.model.siteTypes[site.slot - 1]? = some (s.layer, s.site) := by
  obtain ⟨-, -, hlow, hhigh⟩ := Mapping.siteAt_eq_ok hb.mapping hs
  rw [hb.sitesPerCell, ← Model.length_siteTypes] at hhigh
  have hlt : site.slot - 1 < k.model.siteTypes.length := by omega
  obtain ⟨⟨layer, name⟩, htype⟩ : ∃ t, k.model.siteTypes[site.slot - 1]? = some t :=
    ⟨_, List.getElem?_eq_getElem hlt⟩
  have hsites := Model.sites_getElem? k.model (site.slot - 1)
  rw [htype, Option.map_some] at hsites
  have hconstant : k.plan.sites[site.slot - 1]? =
      some (SiteConstant.ofSite ⟨layer, name, site.slot - 1 + 1⟩) := by
    rw [hb.plan.sites, Model.siteConstants, List.getElem?_map, hsites]
    rfl
  refine ⟨SiteConstant.ofSite ⟨layer, name, site.slot - 1 + 1⟩, ?_, ?_, htype⟩
  · rw [← hb.plan.sites]
    exact List.mem_of_getElem? hconstant
  · unfold siteType
    rw [bind_eq_ok_iff]
    refine ⟨site, mapError_eq_ok_iff.2 hs, ?_⟩
    rw [hconstant]
    rfl

theorem exists_siteType (hb : k.Built frames) {index : Nat} (h : index ∈ k.sites) :
    ∃ s ∈ k.model.siteConstants, k.siteType index = .ok s ∧
      (s.layer, s.site) ∈ k.model.siteTypes := by
  obtain ⟨site, hs⟩ := exists_siteAt h
  obtain ⟨s, hmem, htype, hget⟩ := hb.siteType_eq hs
  exact ⟨s, hmem, htype, List.mem_of_getElem? hget⟩

theorem onType_iff (hb : k.Built frames) {index slot : Nat} {site : LatticeSite}
    {coord : Coordinate} (hs : k.mapping.siteAt index = .ok site)
    (hc : k.model.coordIndex coord = .ok slot) : k.OnType index coord ↔ site.slot = slot := by
  obtain ⟨s, -, htype, hget⟩ := hb.siteType_eq hs
  obtain ⟨⟨hlow, -⟩, hslot⟩ := Model.coordIndex_eq_ok hc
  have hsite := (Mapping.siteAt_eq_ok hb.mapping hs).2.2.1
  constructor
  · rintro ⟨s', htype', hlayer, hname⟩
    obtain rfl := Except.ok.inj (htype.symm.trans htype')
    rw [← hlayer, ← hname] at hslot
    have heq := hb.rules.siteTypes_inj hget hslot
    omega
  · rintro rfl
    rw [hslot] at hget
    have hnames := Prod.mk.inj (Option.some.inj hget)
    exact ⟨s, htype, hnames.1.symm, hnames.2.symm⟩

theorem place_onType (hb : k.Built frames) {origin : Nat} {coord : Coordinate}
    (ho : origin ∈ k.sites) (hc : k.model.HasSiteType coord) :
    k.OnType (k.place origin coord) coord := by
  obtain ⟨site, hs⟩ := exists_siteAt ho
  obtain ⟨slot, hslot⟩ := Model.exists_coordIndex_eq_ok hc
  exact (hb.onType_iff (hb.resolve_of_siteAt hs hslot).2 hslot).2 rfl

theorem place_displacement (hb : k.Built frames) {origin : Nat} {a b : Coordinate}
    (ho : origin ∈ k.sites) (ha : k.model.HasSiteType a) (hbt : k.model.HasSiteType b)
    (hlength : a.offset.length = b.offset.length) :
    k.place (k.place origin a) (a.displacement b) = k.place origin b := by
  obtain ⟨site, hs⟩ := exists_siteAt ho
  obtain ⟨aslot, haslot⟩ := Model.exists_coordIndex_eq_ok ha
  obtain ⟨bslot, hbslot⟩ := Model.exists_coordIndex_eq_ok hbt
  have hvia := (hb.resolve_of_siteAt hs haslot).2
  have hslot : k.model.coordIndex (a.displacement b) = .ok bslot := hbslot
  have htwice := (hb.resolve_of_siteAt hvia hslot).2
  have honce := (hb.resolve_of_siteAt hs hbslot).2
  apply hb.siteAt_inj htwice
  rw [honce]
  congr 2
  change _ = k.mapping.wrap ((k.mapping.wrap (site.cell.shift a.offset)).shift
    (List.zipWith (· - ·) b.offset a.offset))
  rw [Mapping.wrap_shift_wrap, Cell.shift_shift_sub _ hlength]

theorem place_self (hb : k.Built frames) {index n : Nat} {coord : Coordinate}
    (hi : index ∈ k.sites) (hc : k.model.HasSiteType coord)
    (hzero : coord.offset = List.replicate n 0) (htype : k.OnType index coord) :
    k.place index coord = index := by
  obtain ⟨site, hs⟩ := exists_siteAt hi
  obtain ⟨slot, hslot⟩ := Model.exists_coordIndex_eq_ok hc
  have hplace := (hb.resolve_of_siteAt hs hslot).2
  obtain rfl := (hb.onType_iff hs hslot).1 htype
  apply hb.siteAt_inj hplace
  rw [hs, hzero, Cell.shift_replicate_zero, (Mapping.siteAt_eq_ok hb.mapping hs).2.1]

section Frames

variable {f : Frame} {n : Nat} {c : Placement}

theorem frameRules (hb : k.Built frames) (hf : f ∈ frames) : f.FrameRules k.model :=
  Model.frameRules hb.rules hb.framed hf

theorem declares_condition (hb : k.Built frames) (hf : f ∈ frames)
    (hc : f.conditions[n]? = some c) : k.model.Declares c :=
  (hb.frameRules hf).conditions c (List.mem_of_getElem? hc)

theorem declares_anchor (hb : k.Built frames) (hf : f ∈ frames) :
    k.model.HasSiteType f.anchorCoord ∧ f.anchorCoord.offset.length = k.model.dimension :=
  (hb.frameRules hf).declares_anchor

theorem conditionsFrom_anchor (hb : k.Built frames) (hf : f ∈ frames) :
    f.conditionsFrom f.anchor = f.conditions := by
  have hrules := hb.frameRules hf
  unfold Frame.conditionsFrom
  conv_rhs => rw [← List.map_id f.conditions]
  apply List.map_congr_left
  intro c hc
  have hzero := hrules.anchorOffset
  rw [← (hrules.conditions c hc).offset] at hzero
  change Placement.mk (f.anchorCoord.displacement c.coord) c.species = c
  rw [Coordinate.displacement_of_origin hzero]

theorem place_anchorCoord (hb : k.Built frames) (hf : f ∈ frames) {index : Nat}
    (hi : index ∈ k.sites) (htype : k.OnType index f.anchorCoord) :
    k.place index f.anchorCoord = index :=
  hb.place_self hi (hb.declares_anchor hf).1 (hb.frameRules hf).anchorOffset htype

theorem place_anchorFrom (hb : k.Built frames) (hf : f ∈ frames)
    (hc : f.conditions[n]? = some c) {index : Nat} (hi : index ∈ k.sites)
    (htype : k.OnType index f.anchorCoord) :
    k.place (k.place index c.coord) (f.anchorFrom n) = index := by
  have hdeclares := hb.declares_condition hf hc
  obtain ⟨hanchor, hlength⟩ := hb.declares_anchor hf
  unfold Frame.anchorFrom
  rw [Frame.coordAt_of_getElem? hc,
    hb.place_displacement hi hdeclares.siteType hanchor (hdeclares.offset.trans hlength.symm),
    hb.place_anchorCoord hf hi htype]

theorem anchorFrom_hasSiteType (hb : k.Built frames) (hf : f ∈ frames) (n : Nat) :
    k.model.HasSiteType (f.anchorFrom n) :=
  (hb.declares_anchor hf).1

theorem place_place_anchorFrom (hb : k.Built frames) (hf : f ∈ frames)
    (hc : f.conditions[n]? = some c) {x : Nat} (hx : x ∈ k.sites)
    (htype : k.OnType x c.coord) : k.place (k.place x (f.anchorFrom n)) c.coord = x := by
  have hdeclares := hb.declares_condition hf hc
  have hzero := (hb.frameRules hf).anchorOffset
  rw [← hdeclares.offset] at hzero
  have hself : k.place x (c.coord.displacement c.coord) = x :=
    hb.place_self hx hdeclares.siteType (Coordinate.offset_displacement_self c.coord) htype
  have hlength : (c.coord.displacement f.anchorCoord).offset.length =
      (c.coord.displacement c.coord).offset.length := by
    simp [Coordinate.displacement, Coordinate.withOffset, hzero]
  have hthere : k.model.HasSiteType (c.coord.displacement f.anchorCoord) :=
    (hb.declares_anchor hf).1
  have hhere : k.model.HasSiteType (c.coord.displacement c.coord) := hdeclares.siteType
  have hback := hb.place_displacement hx hthere hhere hlength
  rw [Coordinate.displacement_of_displacement hzero, hself] at hback
  unfold Frame.anchorFrom
  rw [Frame.coordAt_of_getElem? hc]
  exact hback

theorem place_anchorFrom_mem_sites (hb : k.Built frames) (hf : f ∈ frames) {x : Nat}
    (hx : x ∈ k.sites) (n : Nat) : k.place x (f.anchorFrom n) ∈ k.sites :=
  hb.place_mem_sites hx (hb.anchorFrom_hasSiteType hf n)

theorem place_anchorFrom_onType (hb : k.Built frames) (hf : f ∈ frames) {x : Nat}
    (hx : x ∈ k.sites) (n : Nat) : k.OnType (k.place x (f.anchorFrom n)) f.anchorCoord :=
  hb.place_onType hx (hb.anchorFrom_hasSiteType hf n)

/-- Seen from the site of condition `n`, every condition is where the anchor has it. -/
theorem place_displacement_condition (hb : k.Built frames) (hf : f ∈ frames)
    (hc : f.conditions[n]? = some c) {x : Nat} (hx : x ∈ k.sites) (htype : k.OnType x c.coord)
    {q : Placement} (hq : q ∈ f.conditions) :
    k.place x ((f.coordAt n).displacement q.coord) =
      k.place (k.place x (f.anchorFrom n)) q.coord := by
  have hdeclares := hb.declares_condition hf hc
  have hqdeclares := (hb.frameRules hf).conditions q hq
  rw [Frame.coordAt_of_getElem? hc]
  conv_lhs => rw [← hb.place_place_anchorFrom hf hc hx htype]
  exact hb.place_displacement (hb.place_anchorFrom_mem_sites hf hx n) hdeclares.siteType
    hqdeclares.siteType (hdeclares.offset.trans hqdeclares.offset.symm)

end Frames

end Built
end Kernel
end LatticeKinetics
