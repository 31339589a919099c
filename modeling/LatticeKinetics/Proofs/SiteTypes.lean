import Mathlib.Data.List.Nodup
import LatticeKinetics.Proofs.ModelRules

/-! The site types of a model and their places in the unit cell. Looking a site type up gives the
place at which it stands in the list of all of them. -/

namespace LatticeKinetics

def siteTypesOf (layers : List Layer) : List (String × String) :=
  layers.flatMap fun l => l.sites.map fun s => (l.name, s.name)

namespace Model

def siteTypes (m : Model) : List (String × String) :=
  siteTypesOf m.layers

theorem length_siteTypes (m : Model) : m.siteTypes.length = m.sitesPerCell := by
  unfold siteTypes siteTypesOf sitesPerCell
  simp only [List.length_flatMap, List.length_map]

theorem sites_getElem? (m : Model) (i : Nat) :
    m.sites[i]? = m.siteTypes[i]?.map fun t => ⟨t.1, t.2, i + 1⟩ := by
  unfold sites siteTypes siteTypesOf
  rw [List.getElem?_map, List.getElem?_zipIdx]
  cases (m.layers.flatMap fun l => l.sites.map fun s => (l.name, s.name))[i]? with
  | none => rfl
  | some t => simp

theorem findSite_eq_ok {layer site : String} {before n : Nat} {layers : List Layer}
    (h : findSite layer site before layers = .ok n) :
    ∃ i, n = before + i + 1 ∧ (siteTypesOf layers)[i]? = some (layer, site) := by
  induction layers generalizing before with
  | nil => simp [findSite] at h
  | cons l layers ih =>
    unfold findSite at h
    unfold siteTypesOf
    rw [List.flatMap_cons]
    split at h
    · rename_i hname
      split at h
      · rename_i position hposition
        obtain rfl := Except.ok.inj h
        obtain ⟨hlt, hsite, -⟩ := List.findIdx?_eq_some_iff_getElem.1 hposition
        refine ⟨position, rfl, ?_⟩
        rw [List.getElem?_append_left (by simpa using hlt), List.getElem?_map,
          List.getElem?_eq_getElem hlt]
        simpa [hname] using hsite
      · contradiction
    · obtain ⟨i, rfl, hi⟩ := ih h
      refine ⟨l.sites.length + i, by omega, ?_⟩
      rw [List.getElem?_append_right (by simp)]
      simpa [siteTypesOf] using hi

theorem exists_findSite_eq_ok {layer site : String} {layers : List Layer} {l : Layer}
    (hl : layers.find? (·.name == layer) = some l) (hsite : l.hasSite site = true)
    (before : Nat) : ∃ n, findSite layer site before layers = .ok n := by
  induction layers generalizing before with
  | nil => simp at hl
  | cons k layers ih =>
    unfold findSite
    by_cases hname : k.name = layer
    · obtain rfl : k = l := by simpa [hname] using hl
      cases hp : k.sitePosition? site with
      | some position => simp [hname]
      | none =>
        have hnone := List.findIdx?_eq_none_iff.1 hp
        obtain ⟨s, hs, heq⟩ := List.any_eq_true.1 hsite
        simp [hnone s hs] at heq
    · simp only [hname, ↓reduceIte]
      apply ih
      simpa [hname] using hl

theorem exists_coordIndex_eq_ok {m : Model} {coord : Coordinate} (h : m.HasSiteType coord) :
    ∃ slot, m.coordIndex coord = .ok slot := by
  obtain ⟨l, hl, hsite⟩ := h
  exact exists_findSite_eq_ok hl hsite 0

theorem coordIndex_eq_ok {m : Model} {coord : Coordinate} {slot : Nat}
    (h : m.coordIndex coord = .ok slot) :
    (1 ≤ slot ∧ slot ≤ m.sitesPerCell) ∧
      m.siteTypes[slot - 1]? = some (coord.layer, coord.site) := by
  obtain ⟨i, rfl, hi⟩ := findSite_eq_ok h
  obtain ⟨hlt, -⟩ := List.getElem?_eq_some_iff.1 hi
  have hlength := length_siteTypes m
  unfold siteTypes at hlength ⊢
  refine ⟨by omega, ?_⟩
  rw [show 0 + i + 1 - 1 = i by omega, hi]

theorem map_name_sublist (layers : List Layer) :
    (layers.map (·.name)).Sublist (layers.flatMap layerNames) := by
  induction layers with
  | nil => exact List.Sublist.refl _
  | cons l layers ih =>
    rw [List.map_cons, List.flatMap_cons, layerNames, List.cons_append]
    exact (ih.trans (List.sublist_append_right _ _)).cons_cons _

theorem find?_name_eq_some_iff {layers : List Layer} {name : String}
    (h : (layers.map (·.name)).Nodup) {l : Layer} :
    layers.find? (·.name == name) = some l ↔ l ∈ layers ∧ l.name = name := by
  constructor
  · intro hfind
    exact ⟨List.mem_of_find?_eq_some hfind, by simpa using List.find?_some hfind⟩
  · rintro ⟨hmem, rfl⟩
    have hsome : (layers.find? (·.name == l.name)).isSome = true :=
      List.find?_isSome.2 ⟨l, hmem, by simp⟩
    obtain ⟨l', hl'⟩ := Option.isSome_iff_exists.1 hsome
    have hname : l'.name = l.name := by simpa using List.find?_some hl'
    rw [hl', List.inj_on_of_nodup_map h (List.mem_of_find?_eq_some hl') hmem hname]

theorem map_sites (m : Model) : (m.sites.map fun s => (s.layer, s.site)) = m.siteTypes := by
  unfold sites siteTypes siteTypesOf
  rw [List.map_map]
  exact List.zipIdx_map_fst 0 _

namespace Rules

variable {m : Model}

theorem names_nodup (h : m.Rules) : m.names.Nodup :=
  h.names.distinct.of_map _

theorem species_nodup (h : m.Rules) : m.species.Nodup := by
  have hnames := h.names_nodup
  unfold Model.names at hnames
  exact (List.nodup_append.1 (List.nodup_append.1 hnames).1).1

theorem layerNames_nodup (h : m.Rules) : (m.layers.flatMap layerNames).Nodup := by
  have hnames := h.names_nodup
  unfold Model.names at hnames
  exact (List.nodup_append.1 (List.nodup_append.1 hnames).1).2.1

theorem siteTypes_nodup (h : m.Rules) : m.siteTypes.Nodup := by
  obtain ⟨hlayer, hapart⟩ := List.nodup_flatMap.1 h.layerNames_nodup
  apply List.nodup_flatMap.2
  constructor
  · intro l hl
    have hsites : l.siteNames.Nodup := (List.nodup_cons.1 (hlayer l hl)).2.of_map _
    have hmap : (l.sites.map fun s => (l.name, s.name)) = l.siteNames.map (Prod.mk l.name) := by
      simp [Layer.siteNames]
    rw [hmap]
    exact hsites.map fun _ _ heq => congrArg Prod.snd heq
  · apply hapart.imp
    intro k l hkl t hk hl
    obtain ⟨s, -, rfl⟩ := List.mem_map.1 hk
    obtain ⟨s', -, heq⟩ := List.mem_map.1 hl
    have hname : l.name = k.name := congrArg Prod.fst heq
    have hk : k.name ∈ layerNames k := by simp [layerNames]
    have hl : k.name ∈ layerNames l := by simp [layerNames, hname]
    exact hkl hk hl

theorem siteTypes_inj (h : m.Rules) {i j : Nat} {t : String × String}
    (hi : m.siteTypes[i]? = some t) (hj : m.siteTypes[j]? = some t) : i = j := by
  obtain ⟨hlt, -⟩ := List.getElem?_eq_some_iff.1 hi
  exact (List.getElem?_inj hlt h.siteTypes_nodup).1 (hi.trans hj.symm)

theorem hasSiteType_of_mem (h : m.Rules) {coord : Coordinate}
    (hmem : (coord.layer, coord.site) ∈ m.siteTypes) : m.HasSiteType coord := by
  obtain ⟨l, hl, hsite⟩ := List.mem_flatMap.1 hmem
  obtain ⟨s, hs, heq⟩ := List.mem_map.1 hsite
  obtain ⟨hlayer, hname⟩ := Prod.mk.inj heq
  have hnodup := (map_name_sublist m.layers).nodup h.layerNames_nodup
  refine ⟨l, (find?_name_eq_some_iff hnodup).2 ⟨hl, hlayer⟩, ?_⟩
  exact List.any_eq_true.2 ⟨s, hs, by simp [hname]⟩

theorem sitesPerCell_pos (h : m.Rules) : 0 < m.sitesPerCell := by
  obtain ⟨l, layers, hlayers⟩ := List.exists_cons_of_ne_nil h.layers
  have hsites : l.sites ≠ [] := h.sites l (by simp [hlayers])
  have hlength := List.length_pos_of_ne_nil hsites
  unfold sitesPerCell
  rw [hlayers, List.flatMap_cons, List.length_append]
  omega

end Rules
end Model
end LatticeKinetics
