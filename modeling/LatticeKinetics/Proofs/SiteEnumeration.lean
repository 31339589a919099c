import Mathlib.Data.Set.Function
import LatticeKinetics.Proofs.KernelPlaces
import LatticeKinetics.Samples

/-! One numbering of the site types serves all who refer to them: looking a site type up, listing
all of them, the constants of a plan and the slots of a lattice. The look-up adds up the sizes of
the layers before and searches the layer; that it arrives at the place in the listing needs all
names to be distinct. -/

namespace LatticeKinetics

namespace Model

def HasSite (m : Model) (layer site : String) : Prop :=
  ∃ l ∈ m.layers, l.name = layer ∧ site ∈ l.siteNames

/-- What a look-up says that finds nothing: there is no layer of that name, or it has no such
site. -/
inductive Misses (m : Model) (layer site : String) : ModelError → Prop where
  | layer : (∀ l ∈ m.layers, l.name ≠ layer) →
    Misses m layer site (.unknownLayer .siteLookup layer)
  | site : (∃ l ∈ m.layers, l.name = layer) → ¬m.HasSite layer site →
    Misses m layer site (.unknownSite .siteLookup layer site)

/-- The declared site types have the numbers from one to the size of the cell, one each. Whatever
is not declared is not found, and the listing has each site type at its number. -/
structure NumbersSites (m : Model) : Prop where
  bijective : Set.BijOn (fun t : String × String => m.siteIndex t.1 t.2) {t | m.HasSite t.1 t.2}
    (Except.ok '' {n | 1 ≤ n ∧ n ≤ m.sitesPerCell})
  missed : ∀ layer site cause,
    m.siteIndex layer site = .error cause ↔ m.Misses layer site cause
  listed : ∀ i s, m.sites[i]? = some s ↔
    s.index = i + 1 ∧ m.siteIndex s.layer s.site = .ok s.index

variable {m : Model} {layer site : String}

theorem mem_siteTypes_iff : (layer, site) ∈ m.siteTypes ↔ m.HasSite layer site := by
  unfold siteTypes siteTypesOf HasSite Layer.siteNames
  simp only [List.mem_flatMap, List.mem_map, Prod.mk.injEq]
  constructor
  · rintro ⟨l, hl, s, hs, hlayer, hsite⟩
    exact ⟨l, hl, hlayer, s, hs, hsite⟩
  · rintro ⟨l, hl, hlayer, s, hs, hsite⟩
    exact ⟨l, hl, s, hs, hlayer, hsite⟩

theorem Misses.not_hasSite {cause : ModelError} (h : m.Misses layer site cause) :
    ¬m.HasSite layer site := by
  cases h with
  | layer hlayers =>
    rintro ⟨l, hl, hname, -⟩
    exact hlayers l hl hname
  | site _ hnone => exact hnone

theorem Misses.unique {cause found : ModelError} (h : m.Misses layer site cause)
    (hfound : m.Misses layer site found) : found = cause := by
  cases h with
  | layer hlayers =>
    cases hfound with
    | layer => rfl
    | site hlayer =>
      obtain ⟨l, hl, hname⟩ := hlayer
      exact absurd hname (hlayers l hl)
  | site hlayer =>
    cases hfound with
    | layer hlayers =>
      obtain ⟨l, hl, hname⟩ := hlayer
      exact absurd hname (hlayers l hl)
    | site => rfl

theorem findSite_eq_error {before : Nat} {layers : List Layer} {cause : ModelError}
    (h : findSite layer site before layers = .error cause) :
    (cause = .unknownLayer .siteLookup layer ∧ ∀ l ∈ layers, l.name ≠ layer) ∨
      (cause = .unknownSite .siteLookup layer site ∧ ∃ l ∈ layers, l.name = layer) := by
  induction layers generalizing before with
  | nil => exact .inl ⟨(Except.error.inj h).symm, by simp⟩
  | cons l layers ih =>
    unfold findSite at h
    split at h
    · rename_i hname
      split at h
      · contradiction
      · exact .inr ⟨(Except.error.inj h).symm, l, by simp, hname⟩
    · rename_i hname
      rcases ih h with ⟨hcause, hlayers⟩ | ⟨hcause, l', hl', hname'⟩
      · exact .inl ⟨hcause, List.forall_mem_cons.2 ⟨hname, hlayers⟩⟩
      · exact .inr ⟨hcause, l', List.mem_cons_of_mem _ hl', hname'⟩

namespace Rules

theorem siteIndex_eq_ok_iff (h : m.Rules) {n : Nat} :
    m.siteIndex layer site = .ok n ↔ 1 ≤ n ∧ m.siteTypes[n - 1]? = some (layer, site) := by
  constructor
  · intro hindex
    have hcoord : m.coordIndex ⟨[], site, layer⟩ = .ok n := hindex
    obtain ⟨⟨hlow, -⟩, htype⟩ := coordIndex_eq_ok hcoord
    exact ⟨hlow, htype⟩
  · rintro ⟨hlow, htype⟩
    have hsite : m.HasSiteType ⟨[], site, layer⟩ :=
      h.hasSiteType_of_mem (List.mem_of_getElem? htype)
    obtain ⟨n', hindex⟩ := exists_coordIndex_eq_ok hsite
    obtain ⟨⟨hlow', -⟩, htype'⟩ := coordIndex_eq_ok hindex
    have hplace := h.siteTypes_inj htype htype'
    obtain rfl : n = n' := by omega
    exact hindex

theorem exists_siteIndex_iff (h : m.Rules) :
    (∃ n, m.siteIndex layer site = .ok n) ↔ m.HasSite layer site := by
  rw [← mem_siteTypes_iff, List.mem_iff_getElem?]
  constructor
  · rintro ⟨n, hindex⟩
    exact ⟨n - 1, (h.siteIndex_eq_ok_iff.1 hindex).2⟩
  · rintro ⟨i, hi⟩
    exact ⟨i + 1, h.siteIndex_eq_ok_iff.2 ⟨by omega, hi⟩⟩

theorem siteIndex_bijOn (h : m.Rules) :
    Set.BijOn (fun t : String × String => m.siteIndex t.1 t.2) {t | m.HasSite t.1 t.2}
      (Except.ok '' {n | 1 ≤ n ∧ n ≤ m.sitesPerCell}) := by
  have hlength := length_siteTypes m
  refine ⟨?_, ?_, ?_⟩
  · intro t ht
    obtain ⟨n, hindex⟩ := h.exists_siteIndex_iff.2 ht
    obtain ⟨hlow, htype⟩ := h.siteIndex_eq_ok_iff.1 hindex
    obtain ⟨hlt, -⟩ := List.getElem?_eq_some_iff.1 htype
    exact ⟨n, ⟨hlow, by omega⟩, hindex.symm⟩
  · intro t ht t' _ heq
    obtain ⟨n, hindex⟩ := h.exists_siteIndex_iff.2 ht
    have htype := (h.siteIndex_eq_ok_iff.1 hindex).2
    have htype' := (h.siteIndex_eq_ok_iff.1 (heq.symm.trans hindex)).2
    exact Option.some.inj (htype.symm.trans htype')
  · rintro _ ⟨n, ⟨hlow, hhigh⟩, rfl⟩
    obtain ⟨t, htype⟩ : ∃ t, m.siteTypes[n - 1]? = some t :=
      ⟨_, List.getElem?_eq_getElem (by omega)⟩
    have hindex := h.siteIndex_eq_ok_iff.2 ⟨hlow, htype⟩
    exact ⟨t, h.exists_siteIndex_iff.1 ⟨n, hindex⟩, hindex⟩

theorem siteIndex_eq_error_iff (h : m.Rules) {cause : ModelError} :
    m.siteIndex layer site = .error cause ↔ m.Misses layer site cause := by
  have hmisses {found : ModelError} (herror : m.siteIndex layer site = .error found) :
      m.Misses layer site found := by
    rcases findSite_eq_error herror with ⟨rfl, hlayers⟩ | ⟨rfl, hlayer⟩
    · exact .layer hlayers
    · refine .site hlayer fun hsite => ?_
      obtain ⟨n, hindex⟩ := h.exists_siteIndex_iff.2 hsite
      rw [herror] at hindex
      contradiction
  refine ⟨hmisses, fun hcause => ?_⟩
  cases hindex : m.siteIndex layer site with
  | ok n => exact absurd (h.exists_siteIndex_iff.1 ⟨n, hindex⟩) hcause.not_hasSite
  | error found => rw [hcause.unique (hmisses hindex)]

theorem sites_getElem?_eq_some_iff (h : m.Rules) {i : Nat} {s : SiteRef} :
    m.sites[i]? = some s ↔ s.index = i + 1 ∧ m.siteIndex s.layer s.site = .ok s.index := by
  rw [sites_getElem?, h.siteIndex_eq_ok_iff]
  constructor
  · intro hs
    obtain ⟨t, ht, rfl⟩ := Option.map_eq_some_iff.1 hs
    exact ⟨rfl, Nat.le_add_left 1 i, ht⟩
  · rintro ⟨hindex, -, htype⟩
    rw [hindex, Nat.add_sub_cancel] at htype
    rw [htype, Option.map_some, ← hindex]

theorem numbersSites (h : m.Rules) : m.NumbersSites where
  bijective := h.siteIndex_bijOn
  missed _ _ _ := h.siteIndex_eq_error_iff
  listed _ _ := h.sites_getElem?_eq_some_iff

end Rules
end Model

theorem Plan.CompiledFrom.sites_getElem?_eq_some_iff {p : Plan} {m : Model} {frames : List Frame}
    (h : p.CompiledFrom m frames) (hm : m.Rules) {i : Nat} {c : SiteConstant} :
    p.sites[i]? = some c ↔ c.index = i + 1 ∧ m.siteIndex c.layer c.site = .ok c.index ∧
      c.name = Model.siteConstant c.layer c.site := by
  rw [h.sites, Model.siteConstants, List.getElem?_map, Option.map_eq_some_iff]
  constructor
  · rintro ⟨s, hs, rfl⟩
    obtain ⟨hplace, hindex⟩ := hm.sites_getElem?_eq_some_iff.1 hs
    exact ⟨hplace, hindex, rfl⟩
  · rintro ⟨hplace, hindex, hname⟩
    refine ⟨⟨c.layer, c.site, c.index⟩, hm.sites_getElem?_eq_some_iff.2 ⟨hplace, hindex⟩, ?_⟩
    rw [SiteConstant.ofSite, ← hname]

theorem Kernel.siteType_eq_ok_iff {k : Kernel} {n : Nat} {type : SiteConstant} :
    k.siteType n = .ok type ↔ ∃ site, k.mapping.siteAt n = .ok site ∧
      k.plan.sites[site.slot - 1]? = some type := by
  unfold siteType
  rw [bind_eq_ok_iff]
  simp only [mapError_eq_ok_iff]
  apply exists_congr
  intro site
  cases k.plan.sites[site.slot - 1]? <;> simp

/-- In a valid model every site type has a number of its own, between one and the number of site
types. A compiled plan lists them by these numbers, and a kernel finds at each site of its lattice
the site type whose number is the slot. -/
theorem site_types_are_numbered_alike {d : Draft} {m : Model} (hd : d.build = .ok m) :
    m.NumbersSites ∧ ∀ p, m.compile = .ok p →
      (∀ i c, p.sites[i]? = some c ↔ c.index = i + 1 ∧
        m.siteIndex c.layer c.site = .ok c.index ∧ c.name = Model.siteConstant c.layer c.site) ∧
      ∀ extents k, Kernel.ofExtents m p extents = .ok k →
        ∀ n, 1 ≤ n ∧ n ≤ k.mapping.volume → ∃ site type, k.mapping.siteAt n = .ok site ∧
          p.sites[site.slot - 1]? = some type ∧ k.siteType n = .ok type ∧
          m.siteIndex type.layer type.site = .ok site.slot := by
  obtain ⟨hrules, -⟩ := Draft.build_eq_ok hd
  refine ⟨hrules.numbersSites, fun p hp => ?_⟩
  obtain ⟨frames, -, hplan⟩ := Model.compile_eq_ok hp
  refine ⟨fun _ _ => hplan.sites_getElem?_eq_some_iff hrules, fun extents k hk n hn => ?_⟩
  obtain ⟨rfl, rfl, _, hb⟩ := Kernel.ofExtents_eq_ok hd hp hk
  obtain ⟨type, -, htype, -⟩ := hb.exists_siteType (Kernel.mem_sites.2 hn)
  obtain ⟨site, hsite, hconstant⟩ := Kernel.siteType_eq_ok_iff.1 htype
  obtain ⟨hplace, hindex, -⟩ := (hplan.sites_getElem?_eq_some_iff hrules).1 hconstant
  have hslot := (Mapping.siteAt_eq_ok hb.mapping hsite).2.2.1
  rw [hplace, Nat.sub_add_cancel hslot] at hindex
  exact ⟨site, type, hsite, hconstant, htype, hindex⟩

def Samples.steppedTerrace : Draft :=
  { dimension := 1
    species := ["empty", "A"]
    layers := [
      { name := "terrace", sites := [{ name := "top" }, { name := "hollow" }] },
      { name := "step", sites := [{ name := "top" }] }]
    processes := [adsorb "land" ⟨[0], "top", "step"⟩ "A" "k_land"] }

/-- Site 6 of two cells has slot 3, and this is the number of the site type on the step. -/
theorem stepped_terrace_site_types_are_numbered_alike :
    ∃ m p k, Samples.steppedTerrace.build = .ok m ∧ m.compile = .ok p ∧
      Kernel.ofExtents m p [2] = .ok k ∧ m.NumbersSites ∧
      m.siteIndex "step" "hollow" = .error (.unknownSite .siteLookup "step" "hollow") ∧
      p.sites[2]? = some ⟨"step_top", "step", "top", 3⟩ ∧
      ∃ type, k.siteType 6 = .ok type ∧ m.siteIndex type.layer type.site = .ok 3 := by
  have h : (do
      let m ← Samples.steppedTerrace.build.toOption
      let p ← m.compile.toOption
      let k ← (Kernel.ofExtents m p [2]).toOption
      let site ← (k.mapping.siteAt 6).toOption
      guard (k.mapping.volume = 6 ∧ site.slot = 3 ∧
        p.sites[2]? = some ⟨"step_top", "step", "top", 3⟩ ∧
        m.siteIndex "step" "hollow" =
          .error (.unknownSite .siteLookup "step" "hollow"))) = some () := by
    decide +kernel
  simp only [Option.bind_eq_bind, Option.bind_eq_some_iff, toOption_eq_some_iff,
    Option.guard_eq_some'] at h
  obtain ⟨m, hm, p, hp, k, hk, site, hsite, hvolume, hslot, hconstant, hmissed⟩ := h
  obtain ⟨hnumbers, hcompiled⟩ := site_types_are_numbered_alike hm
  obtain ⟨-, hsites⟩ := hcompiled p hp
  obtain ⟨site', type, hsite', -, htype, hindex⟩ := hsites [2] k hk 6 (by omega)
  obtain rfl := Except.ok.inj (hsite.symm.trans hsite')
  exact ⟨m, p, k, hm, hp, hk, hnumbers, hmissed, hconstant, type, htype, hslot ▸ hindex⟩

end LatticeKinetics
