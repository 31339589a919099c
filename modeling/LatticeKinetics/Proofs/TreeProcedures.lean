import LatticeKinetics.Fortran.ProcessModule
import LatticeKinetics.Proofs.LatticeMapping
import LatticeKinetics.Proofs.PlanItems
import LatticeKinetics.Proofs.SourceStatements
import LatticeKinetics.Samples

/-! The generated update and touch-up procedures do what the decision trees of the plan say.
Constants have the values with which the generated modules declare them, and a site is seen from the
one that the procedure is called with. -/

namespace LatticeKinetics

open Text Fortran

namespace Model

def constants (m : Model) : List (String × Int) :=
  (m.species.zipIdx.map fun s => (s.1, (s.2 : Int))) ++
    (m.sites.map fun s => (siteConstant s.layer s.site, (s.index : Int))) ++
    m.numberedProcesses.map fun p => (p.2.name, (p.1 : Int))

def constant? (m : Model) (name : String) : Option Int :=
  (m.constants.find? fun c => foldCase c.1 == foldCase name).map (·.2)

def siteVector (m : Model) (here : SiteVector) (coord : Coordinate) : SiteVector :=
  ⟨here.cell.shift coord.offset, ((m.coordIndex coord).toOption.getD 0 : Nat)⟩

def act (m : Model) (here : SiteVector) : Effect → Act
  | .enable process location => .add process (m.siteVector here location)
  | .disable process location => .remove process (m.siteVector here location)

/-- A procedure sees this world when it is called with a site of the given type and the sites around
it are occupied in the given way: each holds the value of the constant of its species. -/
structure Seen (m : Model) (layer site : String) (occupant : Coordinate → String) (w : World) :
    Prop where
  constants : w.constant? = m.constant?
  siteType : ∃ slot : Nat, m.siteIndex layer site = .ok slot ∧ w.site.slot = slot
  species : ∀ c, occupant c ∈ m.species
  held : ∀ c, m.Reaches c → m.constant? (occupant c) = some (w.held (m.siteVector w.site c))

section Constants

variable {m : Model}

theorem map_fst_constants (m : Model) : m.constants.map (·.1) =
    m.species ++ (m.siteTypes.map fun t => siteConstant t.1 t.2) ++ m.processes.map (·.name) := by
  have hspecies : (m.species.zipIdx.map fun s => s.1) = m.species := List.zipIdx_map_fst 0 _
  have hprocesses : (m.processes.zipIdx.map fun p => p.1.name) = m.processes.map (·.name) := by
    rw [← List.zipIdx_map_fst 0 m.processes, List.map_map, List.zipIdx_map_fst]
    rfl
  unfold constants numberedProcesses
  rw [List.map_append, List.map_append, List.map_map, List.map_map, List.map_map, List.map_map,
    ← map_sites, List.map_map]
  exact congrArg₂ _ (congrArg₂ _ hspecies rfl) hprocesses

theorem siteConstants_sublist (layers : List Layer) :
    ((siteTypesOf layers).map fun t => siteConstant t.1 t.2).Sublist
      (layers.flatMap layerNames) := by
  induction layers with
  | nil => exact List.Sublist.refl _
  | cons l layers ih =>
    unfold siteTypesOf at ih ⊢
    rw [List.flatMap_cons, List.flatMap_cons, List.map_append, List.map_map, layerNames,
      Layer.siteNames, List.map_map]
    exact ((List.Sublist.refl _).cons _).append ih

theorem constants_sublist (m : Model) : (m.constants.map (·.1)).Sublist m.names := by
  rw [map_fst_constants]
  exact ((List.Sublist.refl _).append (siteConstants_sublist m.layers)).append
    (List.Sublist.refl _)

theorem Rules.constants_nodup (h : m.Rules) : (m.constants.map fun c => foldCase c.1).Nodup := by
  have hsublist := (constants_sublist m).map foldCase
  rw [List.map_map] at hsublist
  exact hsublist.nodup h.names.distinct

theorem Rules.isIdentifier_constant (h : m.Rules) {name : String} {value : Int}
    (hc : (name, value) ∈ m.constants) : isIdentifier name = true :=
  h.names.identifiers name ((constants_sublist m).subset (List.mem_map.2 ⟨_, hc, rfl⟩))

theorem Rules.constant?_of_mem (h : m.Rules) {name : String} {value : Int}
    (hc : (name, value) ∈ m.constants) : m.constant? name = some value := by
  have hsome : (m.constants.find? fun d => foldCase d.1 == foldCase name).isSome = true :=
    List.find?_isSome.2 ⟨_, hc, by simp⟩
  obtain ⟨d, hd⟩ := Option.isSome_iff_exists.1 hsome
  have hname : foldCase d.1 = foldCase name := by simpa using List.find?_some hd
  have heq : d = (name, value) :=
    List.inj_on_of_nodup_map h.constants_nodup (List.mem_of_find?_eq_some hd) hc hname
  rw [constant?, hd, heq]
  rfl

theorem mem_constants_species {s : String} {n : Nat} (hs : m.speciesNumber? s = some n) :
    (s, (n : Int)) ∈ m.constants := by
  obtain ⟨hlt, heq, -⟩ := List.findIdx?_eq_some_iff_getElem.1 hs
  have hget : m.species[n]? = some s := by
    rw [List.getElem?_eq_getElem hlt]
    simpa using heq
  apply List.mem_append_left
  apply List.mem_append_left
  exact List.mem_map.2 ⟨(s, n), List.mem_zipIdx_iff_getElem?.2 hget, rfl⟩

theorem mem_constants_site {layer site : String} {slot : Nat}
    (hslot : m.siteIndex layer site = .ok slot) :
    (siteConstant layer site, (slot : Int)) ∈ m.constants := by
  have hcoord : m.coordIndex ⟨[], site, layer⟩ = .ok slot := hslot
  obtain ⟨⟨hlow, -⟩, hget⟩ := coordIndex_eq_ok hcoord
  have hsite : m.sites[slot - 1]? = some ⟨layer, site, slot⟩ := by
    rw [sites_getElem?, hget, Option.map_some, Nat.sub_add_cancel hlow]
  apply List.mem_append_left
  apply List.mem_append_right
  exact List.mem_map.2 ⟨_, List.mem_of_getElem? hsite, rfl⟩

theorem mem_constants_process {n : Nat} {p : Process} (hp : m.process? n = some p) :
    (p.name, (n : Int)) ∈ m.constants := by
  unfold process? at hp
  split at hp
  · contradiction
  · rename_i hn
    apply List.mem_append_right
    refine List.mem_map.2 ⟨(n, p), ?_, rfl⟩
    refine List.mem_map.2 ⟨(p, n - 1), List.mem_zipIdx_iff_getElem?.2 hp, ?_⟩
    exact congrArg (Prod.mk · p) (Nat.sub_add_cancel (by omega))

theorem speciesNumber?_inj {s s' : String} {n : Nat} (h : m.speciesNumber? s = some n)
    (h' : m.speciesNumber? s' = some n) : s = s' := by
  obtain ⟨hlt, heq, -⟩ := List.findIdx?_eq_some_iff_getElem.1 h
  obtain ⟨_, heq', -⟩ := List.findIdx?_eq_some_iff_getElem.1 h'
  have hs : m.species[n] = s := by simpa using heq
  have hs' : m.species[n] = s' := by simpa using heq'
  exact hs.symm.trans hs'

theorem exists_speciesNumber? {s : String} (h : s ∈ m.species) :
    ∃ n, m.speciesNumber? s = some n := by
  apply Option.isSome_iff_exists.1
  rw [speciesNumber?, List.findIdx?_isSome]
  exact List.any_eq_true.2 ⟨s, h, by simp⟩

end Constants

section Places

variable {m : Model} {layer site : String} {occupant : Coordinate → String} {w : World}

theorem Rules.exists_coordIndex (h : m.Rules) {c : Coordinate} (hc : m.Reaches c) :
    ∃ slot, m.coordIndex c = .ok slot :=
  exists_coordIndex_eq_ok (h.hasSiteType_iff.2 hc.siteType)

theorem siteVector_eq {c : Coordinate} {slot : Nat} (hc : m.coordIndex c = .ok slot)
    (here : SiteVector) : m.siteVector here c = ⟨here.cell.shift c.offset, slot⟩ := by
  rw [siteVector, hc]
  rfl

theorem shift_axes (cell : Cell) (c : Coordinate) :
    cell.shift [c.axis 0, c.axis 1, c.axis 2] = cell.shift c.offset := by
  apply Triple.ext_get
  intro axis
  rw [Cell.get_shift, Cell.get_shift]
  cases axis <;> rfl

theorem shift_of_isAnchor {c : Coordinate} (h : c.isAnchor = true) (cell : Cell) :
    cell.shift c.offset = cell := by
  rw [Frame.offset_eq_replicate h, Cell.shift_replicate_zero]

def BindsSites (m : Model) (constant? : String → Option Int) : Prop :=
  ∀ layer site slot, m.siteIndex layer site = .ok slot →
    constant? (siteConstant layer site) = some (slot : Int)

theorem Rules.bindsSites (h : m.Rules) : m.BindsSites m.constant? :=
  fun _ _ _ hslot => h.constant?_of_mem (mem_constants_site hslot)

/-- The expression for a coordinate is the site there, also when it takes the short form that
compares the names of constants. -/
theorem BindsSites.place?_ofCoordinate (hbinds : m.BindsSites w.constant?) {slot there : Nat}
    (hslot : m.siteIndex layer site = .ok slot) (hhere : w.site.slot = slot) {c : Coordinate}
    (hthere : m.coordIndex c = .ok there) :
    w.place? (.ofCoordinate c (siteConstant layer site)) =
      some ⟨w.site.cell.shift c.offset, there⟩ := by
  have horigin := hbinds layer site slot hslot
  have htarget := hbinds c.layer c.site there hthere
  have hsame : siteConstant c.layer c.site = siteConstant layer site → (there : Int) = slot := by
    intro heq
    rw [heq] at htarget
    exact Option.some.inj (htarget.symm.trans horigin)
  unfold SiteExpr.ofCoordinate
  dsimp only
  split
  · rename_i hshort
    rw [shift_of_isAnchor hshort.1, hsame hshort.2, ← hhere]
    rfl
  · split
    · rename_i heq
      simp only [World.place?, World.slotShift?, Option.map_some, shift_axes, hsame heq, hhere,
        Int.add_zero]
    · simp only [World.place?, World.slotShift?, horigin, htarget, Option.bind_eq_bind,
        Option.bind_some, Option.pure_def, Option.map_some, shift_axes, hhere]
      rw [show (slot : Int) + (there - slot) = there by omega]

theorem Seen.place?_ofCoordinate (hw : m.Seen layer site occupant w) (h : m.Rules)
    {c : Coordinate} (hc : m.Reaches c) :
    w.place? (.ofCoordinate c (siteConstant layer site)) = some (m.siteVector w.site c) := by
  obtain ⟨slot, hslot, hhere⟩ := hw.siteType
  obtain ⟨there, hthere⟩ := h.exists_coordIndex hc
  have hbinds : m.BindsSites w.constant? := hw.constants ▸ h.bindsSites
  rw [siteVector_eq hthere]
  exact hbinds.place?_ofCoordinate hslot hhere hthere

open ProcessModule in
theorem Seen.act?_effect (hw : m.Seen layer site occupant w) (h : m.Rules) {e : Effect}
    (hprocess : (m.process? e.process).isSome = true) (hlocation : m.Reaches e.location) :
    w.act? (effect (nameOf m) (siteConstant layer site) e) = some (m.act w.site e) := by
  obtain ⟨p, hp⟩ := Option.isSome_iff_exists.1 hprocess
  have hname : nameOf m e.process = p.name := by
    rw [nameOf, hp]
    rfl
  have hconstant : w.constant? p.name = some (e.process : Int) := by
    rw [hw.constants]
    exact h.constant?_of_mem (mem_constants_process hp)
  have hplace := hw.place?_ofCoordinate h hlocation
  cases e <;>
    simp only [Effect.process, Effect.location] at hname hconstant hplace <;>
    simp [effect, World.act?, act, hname, hconstant, hplace]

end Places

def speciesValue (m : Model) (s : String) : Int :=
  ((m.speciesNumber? s).getD 0 : Nat)

theorem Rules.constant?_species {m : Model} (h : m.Rules) {s : String} (hs : s ∈ m.species) :
    m.constant? s = some (m.speciesValue s) := by
  obtain ⟨n, hn⟩ := exists_speciesNumber? hs
  rw [speciesValue, hn]
  exact h.constant?_of_mem (mem_constants_species hn)

theorem speciesValue_inj {m : Model} {s s' : String} (hs : s ∈ m.species) (hs' : s' ∈ m.species)
    (heq : m.speciesValue s = m.speciesValue s') : s = s' := by
  obtain ⟨n, hn⟩ := exists_speciesNumber? hs
  obtain ⟨n', hn'⟩ := exists_speciesNumber? hs'
  have hsame : n = n' := by
    rw [speciesValue, speciesValue, hn, hn'] at heq
    exact Int.ofNat.inj heq
  exact speciesNumber?_inj hn (hsame ▸ hn')

end Model

theorem Arms.labels_subset_caseSpecies {α : Type} (arms : Arms α) :
    arms.labels ⊆ arms.caseSpecies := by
  match arms with
  | .none => exact List.Subset.refl _
  | .case species body others =>
    apply List.cons_subset_cons
    exact List.subset_append_of_subset_right _ others.labels_subset_caseSpecies

theorem Arms.fired_eq_nil {α : Type} {occupant : Coordinate → String} {found : String}
    {arms : Arms α} (h : found ∉ arms.labels) : arms.fired occupant found = [] := by
  match arms with
  | .none => rfl
  | .case species body others =>
    rw [Arms.labels, List.mem_cons, not_or] at h
    rw [Arms.fired, if_neg (Ne.symm h.1)]
    exact Arms.fired_eq_nil h.2

section Trees

open ProcessModule

variable {m : Model} {layer site : String} {occupant : Coordinate → String} {w : World}

theorem map_append_map_append {α : Type} (o : Option (List α)) (a b : List α) :
    (o.map (b ++ ·)).map (a ++ ·) = o.map (a ++ b ++ ·) := by
  cases o <;> simp

mutual

/-- Both statements are about any lines that follow, so that a part of the text can be taken off its
front; `running` says whether it stands where lines are carried out. -/
theorem perform_treeBody (h : m.Rules) (hw : m.Seen layer site occupant w) (t : Tree Effect)
    (hknows : m.Knows t) (hapart : t.Apart) {stack : List Selection} {running : Bool}
    (hrunning : running? stack = some running) (rest : List Statement) :
    w.perform stack
        ((treeBody (nameOf m) (Model.siteConstant layer site) t).statements ++ rest) =
      (w.perform stack rest).map
        ((if running then (t.fired occupant).map (m.act w.site) else []) ++ ·) := by
  match t with
  | .done => cases running <;> simp [treeBody, Body.statements, Tree.fired]
  | .fire payload later =>
    have hlater := perform_treeBody h hw later (Model.knows_of_fire hknows) hapart hrunning rest
    have hact := hw.act?_effect h (hknows.processes payload List.mem_cons_self)
      (hknows.locations payload List.mem_cons_self)
    rw [treeBody, Body.statements_append, Body.statements_of, List.append_assoc,
      List.singleton_append, World.perform_act hrunning hact, hlater, map_append_map_append]
    cases running <;> rfl
  | .query coord arms later =>
    obtain ⟨hknowsArms, hknowsLater⟩ := Model.knows_of_query hknows
    have hlater := perform_treeBody h hw later hknowsLater hapart.2.2 hrunning rest
    have hcoord : m.Reaches coord := hknows.queries coord List.mem_cons_self
    have hplace := hw.place?_ofCoordinate h hcoord
    have hheld : w.held (m.siteVector w.site coord) = m.speciesValue (occupant coord) :=
      Option.some.inj ((hw.held coord hcoord).symm.trans (h.constant?_species (hw.species coord)))
    have harms := perform_armBody h hw arms hknowsArms hapart.2.1 hapart.1
      (if running then some (occupant coord) else none)
      ⟨if running then some (w.held (m.siteVector w.site coord)) else none, [], none⟩
      (by cases running <;> simp [hw.species]) (by cases running <;> simp [hheld]) (by simp) stack
      ((treeBody (nameOf m) (Model.siteConstant layer site) later).statements ++ rest)
    rw [treeBody, Body.statements_append, Body.statements_append, Body.statements_append,
      Body.statements_of, Body.statements_of, List.append_assoc, List.append_assoc,
      List.append_assoc, List.singleton_append, World.perform_select hrunning hplace,
      List.singleton_append, harms, hlater, map_append_map_append]
    cases running <;> simp [Tree.fired]

theorem perform_armBody (h : m.Rules) (hw : m.Seen layer site occupant w) (arms : Arms Effect)
    (hknows : m.KnowsAll arms.payloads arms.queries arms.caseSpecies) (hapart : arms.Apart)
    (hlabels : arms.labels.Nodup) (found : Option String) (top : Selection)
    (hfound : ∀ s ∈ found, s ∈ m.species) (htop : top.found = found.map m.speciesValue)
    (hfresh : ∀ s ∈ arms.labels, m.speciesValue s ∉ top.labels) (stack : List Selection)
    (rest : List Statement) :
    w.perform (top :: stack)
        ((armBody (nameOf m) (Model.siteConstant layer site) arms).statements ++
          .endSelect :: rest) =
      (w.perform stack rest).map
        ((found.elim [] fun s => (arms.fired occupant s).map (m.act w.site)) ++ ·) := by
  match arms with
  | .none => cases found <;> simp [armBody, Body.statements, World.perform, Arms.fired]
  | .case species body others =>
    have hspecies : species ∈ m.species := hknows.species species List.mem_cons_self
    have hconstant : w.constant? species = some (m.speciesValue species) := by
      rw [hw.constants]
      exact h.constant?_species hspecies
    obtain ⟨hknowsBody, hknowsOthers⟩ := Model.knowsAll_of_case hknows
    obtain ⟨hother, hdistinct⟩ := List.nodup_cons.1 hlabels
    have hcase : ∀ s ∈ others.labels,
        m.speciesValue s ∉ m.speciesValue species :: top.labels := by
      intro s hs
      have hsmem : s ∈ m.species := hknows.species s (List.mem_cons_of_mem _
        (List.mem_append_right _ (others.labels_subset_caseSpecies hs)))
      rw [List.mem_cons, not_or]
      refine ⟨?_, hfresh s (List.mem_cons_of_mem _ hs)⟩
      intro heq
      exact hother (Model.speciesValue_inj hspecies hsmem heq.symm ▸ hs)
    have hothers := perform_armBody h hw others hknowsOthers hapart.2 hdistinct found
      ⟨top.found, m.speciesValue species :: top.labels,
        some (top.found == some (m.speciesValue species))⟩ hfound htop hcase stack rest
    rw [armBody, Body.statements_append, Body.statements_branch, List.append_assoc,
      List.cons_append, World.perform_case hconstant (hfresh species List.mem_cons_self),
      perform_treeBody h hw body hknowsBody hapart.1 rfl,
      hothers, map_append_map_append, htop]
    congr 2
    funext acts
    cases found with
    | none => rfl
    | some s =>
      by_cases hs : species = s
      · subst hs
        simp [Arms.fired, Arms.fired_eq_nil hother]
      · have hne : m.speciesValue s ≠ m.speciesValue species := by
          intro heq
          exact hs (Model.speciesValue_inj hspecies (hfound s rfl) heq.symm)
        simp [Arms.fired, hs, hne]

end

/-! ### The lines of a tree can be read -/

section Lines

variable {slot : Nat}

theorem isIdentifier_of_mem_ofCoordinate (h : m.Rules) (hslot : m.siteIndex layer site = .ok slot)
    {c : Coordinate} (hc : m.Reaches c) :
    ∀ name ∈ (SiteExpr.ofCoordinate c (Model.siteConstant layer site)).constants,
      isIdentifier name = true := by
  obtain ⟨there, hthere⟩ := h.exists_coordIndex hc
  have horigin := h.isIdentifier_constant (Model.mem_constants_site hslot)
  have htarget := h.isIdentifier_constant (Model.mem_constants_site hthere)
  intro name hname
  unfold SiteExpr.ofCoordinate at hname
  dsimp only at hname
  split at hname
  · contradiction
  · split at hname
    · contradiction
    · rcases List.mem_pair.1 hname with rfl | rfl
      · exact htarget
      · exact horigin

theorem readable_effect (h : m.Rules) (hslot : m.siteIndex layer site = .ok slot) {e : Effect}
    (hprocess : (m.process? e.process).isSome = true) (hlocation : m.Reaches e.location) :
    (effect (nameOf m) (Model.siteConstant layer site) e).Readable := by
  obtain ⟨p, hp⟩ := Option.isSome_iff_exists.1 hprocess
  have hname : isIdentifier (nameOf m e.process) = true := by
    rw [nameOf, hp]
    exact h.isIdentifier_constant (Model.mem_constants_process hp)
  have hplace := isIdentifier_of_mem_ofCoordinate h hslot hlocation
  cases e with
  | enable process location => exact Statement.readable_addProcess hname hplace
  | disable process location => exact Statement.readable_removeProcess hname hplace

mutual

theorem readable_treeBody (h : m.Rules) (hslot : m.siteIndex layer site = .ok slot)
    (t : Tree Effect) (hknows : m.Knows t) :
    ∀ s ∈ (treeBody (nameOf m) (Model.siteConstant layer site) t).statements, s.Readable := by
  match t with
  | .done => simp [treeBody, Body.statements]
  | .fire payload later =>
    have hlater := readable_treeBody h hslot later (Model.knows_of_fire hknows)
    have hpayload := readable_effect h hslot (hknows.processes payload List.mem_cons_self)
      (hknows.locations payload List.mem_cons_self)
    simpa [treeBody, hpayload] using hlater
  | .query coord arms later =>
    obtain ⟨hknowsArms, hknowsLater⟩ := Model.knows_of_query hknows
    have hlater := readable_treeBody h hslot later hknowsLater
    have harms := readable_armBody h hslot arms hknowsArms
    have hselect := Statement.readable_selectSpecies
      (isIdentifier_of_mem_ofCoordinate h hslot (hknows.queries coord List.mem_cons_self))
    simp only [treeBody, Body.statements_append, Body.statements_of, List.forall_mem_append,
      List.forall_mem_singleton]
    exact ⟨⟨⟨hselect, harms⟩, Statement.readable_endSelect⟩, hlater⟩

theorem readable_armBody (h : m.Rules) (hslot : m.siteIndex layer site = .ok slot)
    (arms : Arms Effect)
    (hknows : m.KnowsAll arms.payloads arms.queries arms.caseSpecies) :
    ∀ s ∈ (armBody (nameOf m) (Model.siteConstant layer site) arms).statements, s.Readable := by
  match arms with
  | .none => simp [armBody, Body.statements]
  | .case species body others =>
    obtain ⟨hknowsBody, hknowsOthers⟩ := Model.knowsAll_of_case hknows
    have hbody := readable_treeBody h hslot body hknowsBody
    have hothers := readable_armBody h hslot others hknowsOthers
    obtain ⟨n, hn⟩ := Model.exists_speciesNumber? (hknows.species species List.mem_cons_self)
    have hcase := Statement.readable_case (h.isIdentifier_constant (Model.mem_constants_species hn))
    simp only [armBody, Body.statements_append, Body.statements_branch, List.forall_mem_append,
      List.forall_mem_cons]
    exact ⟨⟨hcase, hbody⟩, hothers⟩

end

end Lines

end Trees

/-! ### Every occupation can be seen -/

section Occupations

variable {m : Model} {layer site : String}

theorem shift_inj {a b : List Int} (hlength : a.length = b.length) (ha : a.length ≤ 3) {cell : Cell}
    (heq : cell.shift a = cell.shift b) : a = b := by
  have hget (axis : Axis) : a.getD axis.number 0 = b.getD axis.number 0 := by
    have := congrArg (Triple.get · axis) heq
    simpa using this
  apply List.ext_getElem hlength
  intro i hi hi'
  obtain ⟨axis, rfl⟩ : ∃ axis : Axis, axis.number = i := by
    have hcases : i = 0 ∨ i = 1 ∨ i = 2 := by omega
    rcases hcases with rfl | rfl | rfl
    · exact ⟨.x, rfl⟩
    · exact ⟨.y, rfl⟩
    · exact ⟨.z, rfl⟩
  have hvalue := hget axis
  simpa [List.getD_eq_getElem?_getD, hi, hi'] using hvalue

theorem Model.Rules.siteVector_inj (h : m.Rules) {here : SiteVector} {c c' : Coordinate}
    (hc : m.Reaches c) (hc' : m.Reaches c')
    (heq : m.siteVector here c = m.siteVector here c') : c = c' := by
  obtain ⟨slot, hslot⟩ := h.exists_coordIndex hc
  obtain ⟨slot', hslot'⟩ := h.exists_coordIndex hc'
  rw [Model.siteVector_eq hslot, Model.siteVector_eq hslot', SiteVector.mk.injEq] at heq
  obtain ⟨hcell, hslots⟩ := heq
  obtain rfl : slot = slot' := Int.ofNat.inj hslots
  have htype := (Model.coordIndex_eq_ok hslot).2.symm.trans (Model.coordIndex_eq_ok hslot').2
  obtain ⟨hlayer, hsite⟩ := Prod.mk.inj (Option.some.inj htype)
  have hoffset : c.offset = c'.offset :=
    shift_inj (hc.offset.trans hc'.offset.symm) (hc.offset ▸ h.dimension.2) hcell
  obtain ⟨offset, name, layer⟩ := c
  obtain ⟨offset', name', layer'⟩ := c'
  simp only at hoffset hlayer hsite
  rw [hoffset, hlayer, hsite]

open Classical in
/-- Whatever species are around a site, sites can hold them: no two coordinates lead to one site. -/
theorem Model.Rules.exists_seen (h : m.Rules) {slot : Nat}
    (hslot : m.siteIndex layer site = .ok slot) (cell : Cell) {occupant : Coordinate → String}
    (hspecies : ∀ c, occupant c ∈ m.species) :
    ∃ w, w.site.cell = cell ∧ m.Seen layer site occupant w := by
  let held (v : SiteVector) : Int :=
    if hv : ∃ c, m.Reaches c ∧ m.siteVector ⟨cell, slot⟩ c = v then
      m.speciesValue (occupant hv.choose)
    else 0
  refine ⟨⟨m.constant?, held, ⟨cell, slot⟩⟩, rfl, rfl, ⟨slot, hslot, rfl⟩, hspecies, ?_⟩
  intro c hc
  have hv : ∃ d, m.Reaches d ∧ m.siteVector ⟨cell, slot⟩ d = m.siteVector ⟨cell, slot⟩ c :=
    ⟨c, hc, rfl⟩
  have hchosen : hv.choose = c := h.siteVector_inj hv.choose_spec.1 hc hv.choose_spec.2
  rw [h.constant?_species (hspecies c)]
  change _ = some (held (m.siteVector ⟨cell, slot⟩ c))
  simp only [held, dif_pos hv, hchosen]

end Occupations

open ProcessModule

def Model.treeLines (m : Model) (layer site : String) (t : Tree Effect) : List String :=
  (treeBody (nameOf m) (Model.siteConstant layer site) t).lines

/-- The lines do what the tree says, whatever the occupation, and there is a world for every
occupation. -/
structure Model.Performs (m : Model) (layer site : String) (t : Tree Effect)
    (lines : List String) : Prop where
  performs : ∀ occupant w, m.Seen layer site occupant w →
    w.execute lines = some ((t.fired occupant).map (m.act w.site))
  everywhere : ∀ (cell : Cell) (occupant : Coordinate → String),
    (∀ c, occupant c ∈ m.species) → ∃ w, w.site.cell = cell ∧ m.Seen layer site occupant w

theorem Model.Rules.performs_treeLines {m : Model} (h : m.Rules) {layer site : String} {slot : Nat}
    (hslot : m.siteIndex layer site = .ok slot) {t : Tree Effect} (hknows : m.Knows t)
    (hapart : t.Apart) : m.Performs layer site t (m.treeLines layer site t) := by
  refine ⟨?_, fun cell _ hspecies => h.exists_seen hslot cell hspecies⟩
  intro occupant w hw
  have hrun : w.perform [] (_ ++ []) = _ := perform_treeBody h hw t hknows hapart rfl []
  rw [List.append_nil] at hrun
  rw [treeLines, World.execute_lines (readable_treeBody h hslot t hknows), hrun]
  simp [World.perform]

namespace Plan.CompiledFrom

variable {p : Plan} {m : Model} {frames : List Frame}

theorem exists_siteIndex_update (h : p.CompiledFrom m frames) {u : Update} (hu : u ∈ p.updates) :
    ∃ slot, m.siteIndex u.event.layer u.event.site = .ok slot := by
  obtain ⟨c, hc, -⟩ := h.exists_ofEvent hu
  unfold Classification.ofEvent at hc
  obtain ⟨slot, hslot, -⟩ := bind_eq_ok_iff.1 hc
  exact ⟨slot, hslot⟩

theorem exists_siteIndex_touchup (h : p.CompiledFrom m frames) (hm : m.Rules) {t : Touchup}
    (ht : t ∈ p.touchups) : ∃ slot, m.siteIndex t.layer t.site = .ok slot := by
  rw [h.touchups] at ht
  obtain ⟨s, hs, rfl⟩ := List.mem_map.1 ht
  obtain ⟨ref, href, rfl⟩ := List.mem_map.1 hs
  have hmem : (ref.layer, ref.site) ∈ m.siteTypes := by
    rw [← Model.map_sites]
    exact List.mem_map_of_mem href
  have htype : m.HasSiteType ⟨[], ref.site, ref.layer⟩ := hm.hasSiteType_of_mem hmem
  exact Model.exists_coordIndex_eq_ok htype

theorem apart_update (h : p.CompiledFrom m frames) {u : Update} (hu : u ∈ p.updates) :
    u.tree.Apart := by
  obtain ⟨c, -, rfl⟩ := h.exists_ofEvent hu
  exact Tree.apart_synthesize c.items

theorem apart_touchup (h : p.CompiledFrom m frames) {t : Touchup} (ht : t ∈ p.touchups) :
    t.tree.Apart := by
  rw [h.touchups] at ht
  obtain ⟨s, -, rfl⟩ := List.mem_map.1 ht
  exact Tree.apart_synthesize _

theorem declares_constants (h : p.CompiledFrom m frames) {c : String × Int} (hc : c ∈ m.constants) :
    ⟨0, .statement (Parameter.render ⟨c.1, toString c.2⟩)⟩ ∈
      LatticeModule.declarations m p ++ ProcessModule.declarations m := by
  have hdeclared {ps : List Parameter} {q : Parameter} (hq : q ∈ ps) :
      (⟨0, .statement q.render⟩ : Line) ∈ LatticeModule.parameters ps :=
    List.mem_map.2 ⟨_, List.mem_map.2 ⟨q, hq, rfl⟩, rfl⟩
  rcases List.mem_append.1 hc with hc | hc
  · rcases List.mem_append.1 hc with hc | hc
    · obtain ⟨s, hs, rfl⟩ := List.mem_map.1 hc
      have hline := hdeclared (List.mem_map.2 ⟨s, hs, rfl⟩ :
        (⟨s.1, toString s.2⟩ : Parameter) ∈ m.species.zipIdx.map fun s => ⟨s.1, toString s.2⟩)
      apply List.mem_append_right
      unfold ProcessModule.declarations
      simp only [List.mem_append]
      tauto
    · obtain ⟨s, hs, rfl⟩ := List.mem_map.1 hc
      have hsite : SiteConstant.ofSite s ∈ p.sites := by
        rw [h.sites]
        exact List.mem_map_of_mem hs
      have hline := hdeclared (List.mem_map.2 ⟨_, hsite, rfl⟩ :
        (⟨Model.siteConstant s.layer s.site, toString s.index⟩ : Parameter) ∈
          p.sites.map fun s => ⟨s.name, toString s.index⟩)
      apply List.mem_append_left
      unfold LatticeModule.declarations
      simp only [List.mem_append]
      tauto
  · obtain ⟨np, hnp, rfl⟩ := List.mem_map.1 hc
    have hline : (⟨0, .statement (Parameter.render ⟨np.2.name, toString np.1⟩)⟩ : Line) ∈
        m.numberedProcesses.flatMap processConstant :=
      List.mem_flatMap.2 ⟨np, hnp, List.mem_append_right _ (hdeclared List.mem_cons_self)⟩
    apply List.mem_append_right
    unfold ProcessModule.declarations
    exact List.mem_append_right _ hline

end Plan.CompiledFrom

/-- In the plan of every model that was built and compiles, the lines of an update or a touch-up
behind its first ones are those of its decision tree. Read and carried out with the constants that
are declared, they ask for what the tree fires on the occupation, in the same order. -/
theorem generated_procedures_perform_trees {d : Draft} {m : Model} {p : Plan}
    (hd : d.build = .ok m) (hp : m.compile = .ok p) :
    (∀ c ∈ m.constants, ⟨0, .statement (Parameter.render ⟨c.1, toString c.2⟩)⟩ ∈
      LatticeModule.declarations m p ++ ProcessModule.declarations m) ∧
    (∀ u ∈ p.updates,
      (update (nameOf m) u).body.lines = (Statement.replaceSpecies u.before u.after).render ::
        m.treeLines u.event.layer u.event.site u.tree ∧
      m.Performs u.event.layer u.event.site u.tree
        (m.treeLines u.event.layer u.event.site u.tree)) ∧
    ∀ t ∈ p.touchups,
      (touchup (nameOf m) t).body.lines =
        (t.removals.map fun n => (Statement.removeProcess (nameOf m n) .here).render) ++
          m.treeLines t.layer t.site t.tree ∧
      m.Performs t.layer t.site t.tree (m.treeLines t.layer t.site t.tree) := by
  obtain ⟨hrules, -⟩ := Draft.build_eq_ok hd
  obtain ⟨frames, hframes, hplan⟩ := Model.compile_eq_ok hp
  refine ⟨fun c hc => hplan.declares_constants hc, ?_, ?_⟩
  · intro u hu
    obtain ⟨slot, hslot⟩ := hplan.exists_siteIndex_update hu
    exact ⟨rfl, hrules.performs_treeLines hslot (hplan.knows_update hrules hframes hu)
      (hplan.apart_update hu)⟩
  · intro t ht
    obtain ⟨slot, hslot⟩ := hplan.exists_siteIndex_touchup hrules ht
    refine ⟨?_, hrules.performs_treeLines hslot (hplan.knows_touchup hrules hframes ht)
      (hplan.apart_touchup ht)⟩
    simp [touchup, siteProcedure, Body.lines, Body.of, Model.treeLines]

/-- With `B` two sites on and nothing else around, three processes go and two of the others come:
one selection inside of the other finds its species and one does not. -/
theorem shared_neighbour_update_performs_tree :
    ∃ m p, Samples.sharedNeighbourChain.build = .ok m ∧ m.compile = .ok p ∧ ∃ u ∈ p.updates,
      (m.treeLines u.event.layer u.event.site u.tree).count "end select" = 3 ∧
      ∃ w : World, w.site.cell = ⟨0, 0, 0⟩ ∧
        w.execute (m.treeLines u.event.layer u.event.site u.tree) = some
          (([.disable 1 (Samples.plain [-1]), .disable 2 (Samples.plain [-1]),
            .disable 3 (Samples.plain [-1]), .enable 1 (Samples.plain [0]),
            .enable 3 (Samples.plain [0])] : List Effect).map (m.act w.site)) := by
  let occupant (c : Coordinate) : String := if c.offset = [2] then "B" else "empty"
  have h : (do
      let m ← Samples.sharedNeighbourChain.build.toOption
      let p ← m.compile.toOption
      let u ← p.updates[0]?
      guard (m.species = ["empty", "A", "B"] ∧
        (m.treeLines u.event.layer u.event.site u.tree).count "end select" = 3 ∧
        u.tree.fired occupant = [.disable 1 (Samples.plain [-1]), .disable 2 (Samples.plain [-1]),
          .disable 3 (Samples.plain [-1]), .enable 1 (Samples.plain [0]),
          .enable 3 (Samples.plain [0])])) = some () := by
    decide +kernel
  simp only [Option.bind_eq_bind, Option.bind_eq_some_iff, toOption_eq_some_iff,
    Option.guard_eq_some'] at h
  obtain ⟨m, hm, p, hp, u, hu, hspecies, hcount, hfired⟩ := h
  have hmem : u ∈ p.updates := List.mem_of_getElem? hu
  have hperforms := ((generated_procedures_perform_trees hm hp).2.1 u hmem).2
  have hoccupant : ∀ c, occupant c ∈ m.species := by
    intro c
    rw [hspecies]
    by_cases hc : c.offset = [2] <;> simp [occupant, hc]
  obtain ⟨w, hcell, hseen⟩ := hperforms.everywhere ⟨0, 0, 0⟩ occupant hoccupant
  refine ⟨m, p, hm, hp, u, hmem, hcount, w, hcell, ?_⟩
  rw [hperforms.performs occupant w hseen, hfired]

end LatticeKinetics
