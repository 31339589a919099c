import LatticeKinetics.Proofs.NameCapture
import LatticeKinetics.Proofs.ProcedureLines

/-! The lengths of the lines of both files. The names of a plan are limited, so on the levels that
all procedures share every statement fits; further in, decision trees must leave room for the words
of the statements that stand there. -/

namespace LatticeKinetics

open Text Fortran ProcessModule

/-! ### Names -/

theorem checkIdentifiers_eq_ok_iff {names : List String} {u : Unit} :
    checkIdentifiers names = .ok u ↔ ∀ name ∈ names, byteLength name.toList ≤ maxIdentifier := by
  induction names with
  | nil => simp [checkIdentifiers]
  | cons name names ih =>
    rw [checkIdentifiers, bind_eq_ok_iff, List.forall_mem_cons, ← ih]
    simp [checkIdentifier]

/-- The lengths of the names in generated code. Those that are parts of other names are shorter by
what is put in front of them. -/
structure Model.ShortNames (m : Model) (p : Plan) : Prop where
  species : ∀ s ∈ m.species, IsWord 64 s.toList
  processes : ∀ q ∈ m.processes, IsWord 58 q.name.toList
  siteTypes : ∀ t ∈ m.siteTypes, IsWord 56 (siteConstant t.1 t.2).toList
  procedures : ∀ name ∈ p.checks.map (·.name) ++ p.updates.map (·.name) ++
    p.touchups.map (·.name), byteLength name.toList ≤ 63

/-- In a decision tree the words of all statements have room, however deep they stand. -/
@[mk_iff]
structure Model.Roomy (m : Model) (width : Nat) (t : Tree Effect) : Prop where
  processes : ∀ q ∈ m.processes, width * (t.depth + 3) + byteLength q.name.toList + 11 < 96
  siteTypes : ∀ s ∈ m.siteTypes,
    width * (t.depth + 3) + byteLength (siteConstant s.1 s.2).toList + 4 < 96
  offsets : width * (t.depth + 3) + 16 ≤ 96
  selections : width * (t.depth + 2) + 24 ≤ 96
  cases : ∀ s ∈ m.species, width * (t.depth + 1) + byteLength s.toList + 6 ≤ 98

instance (m : Model) (width : Nat) (t : Tree Effect) : Decidable (m.Roomy width t) :=
  decidable_of_iff _ (Model.roomy_iff m width t).symm

namespace Model

variable {m : Model} {p : Plan} {frames : List Frame} {width : Nat}

theorem formula_of_compile (h : m.compile = .ok p) :
    p.formula = ⟨m.dimension, m.sitesPerCell⟩ := by
  unfold compile formula Formula.ofCell at h
  simp only [bind_eq_ok_iff, mapError_eq_ok_iff, pure_eq_ok_iff] at h
  obtain ⟨_, ⟨_, -, rfl⟩, _, -, _, -, _, -, _, -, rfl⟩ := h
  rfl

theorem Rules.isIdentifier_species (h : m.Rules) {s : String} (hs : s ∈ m.species) :
    isIdentifier s = true := by
  obtain ⟨n, hn⟩ := exists_speciesNumber? hs
  exact h.isIdentifier_constant (mem_constants_species hn)

theorem Rules.isIdentifier_siteConstant (h : m.Rules) {layer site : String}
    (htype : (layer, site) ∈ m.siteTypes) : isIdentifier (siteConstant layer site) = true := by
  apply h.names.identifiers
  apply (constants_sublist m).subset
  rw [map_fst_constants]
  exact List.mem_append_left _ (List.mem_append_right _ (List.mem_map.2 ⟨_, htype, rfl⟩))

theorem Rules.shortNames (h : m.Rules) (hf : m.frames = .ok frames)
    (hplan : p.CompiledFrom m frames)
    (hnames : ∀ name ∈ p.identifiers m, byteLength name.toList ≤ 63) : m.ShortNames p := by
  simp only [Plan.identifiers, List.forall_mem_append] at hnames
  obtain ⟨⟨⟨⟨⟨-, -⟩, hspecies⟩, hchecks⟩, hupdates⟩, htouchups⟩ := hnames
  refine ⟨?_, ?_, ?_, ?_⟩
  · intro s hs
    exact isWord_of_isIdentifier (h.isIdentifier_species hs) (Nat.lt_succ_of_le (hspecies s hs))
  · intro q hq
    have hmem : s!"check_{q.name}" ∈ p.checks.map (·.name) := by
      rw [hplan.checks, ← flatMap_checkNames hf]
      exact List.mem_flatMap.2 ⟨q, hq, List.mem_cons_self⟩
    have hshort := hchecks _ hmem
    have htext : s!"check_{q.name}" = "check_" ++ q.name := rfl
    rw [htext, String.toList_append, byteLength_append] at hshort
    change 6 + _ ≤ 63 at hshort
    exact isWord_of_isIdentifier (h.isIdentifier_process hq) (by omega)
  · intro t ht
    have hmem : s!"touchup_{siteConstant t.1 t.2}" ∈ p.touchups.map (·.name) := by
      rw [← map_sites] at ht
      obtain ⟨ref, href, rfl⟩ := List.mem_map.1 ht
      rw [hplan.touchups, List.map_map]
      exact List.mem_map.2 ⟨.ofSite ref, List.mem_map_of_mem href, rfl⟩
    have hshort := htouchups _ hmem
    have htext : s!"touchup_{siteConstant t.1 t.2}" = "touchup_" ++ siteConstant t.1 t.2 := rfl
    rw [htext, String.toList_append, byteLength_append] at hshort
    change 8 + _ ≤ 63 at hshort
    exact isWord_of_isIdentifier (h.isIdentifier_siteConstant ht) (by omega)
  · simp only [List.forall_mem_append]
    exact ⟨⟨hchecks, hupdates⟩, htouchups⟩

/-! ### Trees -/

theorem Roomy.fits_treeBody {t : Tree Effect} (hroomy : m.Roomy width t) (h : m.Rules)
    (hknows : m.Knows t) (hwithin : t.Within reach) {layer site : String}
    (horigin : (layer, site) ∈ m.siteTypes) :
    (treeBody (nameOf m) (siteConstant layer site) t).code.Fits width 2 := by
  have hdeeper : width * (t.depth + 2) ≤ width * (t.depth + 3) :=
    Nat.mul_le_mul_left width (by omega)
  have hconstant {l r : String} (htype : (l, r) ∈ m.siteTypes) :
      IsWord (96 - width * (t.depth + 3) - 4) (siteConstant l r).toList := by
    have hroom : width * (t.depth + 3) + byteLength (siteConstant l r).toList + 4 < 96 :=
      hroomy.siteTypes (l, r) htype
    exact isWord_of_isIdentifier (h.isIdentifier_siteConstant htype) (by omega)
  have hplaced {c : Coordinate} (hreaches : m.Reaches c) (hc : c.Within reach) :
      Placed (96 - width * (t.depth + 3)) (.ofCoordinate c (siteConstant layer site)) :=
    placed_ofCoordinate hc (hconstant hreaches.siteType) (hconstant horigin)
  have hoffsets := hroomy.offsets
  have hselections := hroomy.selections
  have hdepth : 2 + t.depth ≤ t.depth + 1 + 1 := by omega
  apply ProcessModule.fits_treeBody t 2 hdepth
  · intro e he level hlevel
    obtain ⟨q, hq, hname⟩ := exists_nameOf (hknows.processes e he)
    have hroom := hroomy.processes q hq
    have hprocess : IsWord (96 - width * (t.depth + 3) - 11) (nameOf m e.process).toList := by
      rw [hname]
      exact isWord_of_isIdentifier (h.isIdentifier_process hq) (by omega)
    have hplace := hplaced (hknows.locations e he) (hwithin.1 e he)
    have hspaced := spaced_effect hprocess hplace (by omega)
    exact fits_of_spaced_le hspaced hlevel
  · intro c hc level hlevel
    have hplace := hplaced (hknows.queries c hc) (hwithin.2 c hc)
    have hspaced := Statement.spaced_selectSpecies
      (hplace.mono (show _ ≤ 96 - width * (t.depth + 2) by omega)) (by omega)
    exact fits_of_spaced_le hspaced hlevel
  · intro s hs level hlevel
    have hroom := hroomy.cases s (hknows.species s hs)
    have hle : width * level ≤ width * (t.depth + 1) := Nat.mul_le_mul_left width hlevel
    exact Statement.fits_case (by omega)
  · intro level hlevel
    have hle : width * level ≤ width * (t.depth + 2) := Nat.mul_le_mul_left width (by omega)
    have hlength : byteLength Statement.endSelect.render.toList = 10 := by decide
    exact fits_of_line (by omega)

/-! ### Procedures -/

section Procedures

variable (h : m.Rules) (hf : m.frames = .ok frames) (hplan : p.CompiledFrom m frames)
  (hnames : m.ShortNames p) (hreach : p.InReach) (hwidth : width ≤ 8)

include hnames in
theorem ShortNames.placed {c : Coordinate} (htype : (c.layer, c.site) ∈ m.siteTypes)
    (hc : c.Within reach) {layer site : String} (horigin : (layer, site) ∈ m.siteTypes) :
    Placed 64 (.ofCoordinate c (siteConstant layer site)) :=
  placed_ofCoordinate hc ((hnames.siteTypes _ htype).mono (by decide))
    ((hnames.siteTypes _ horigin).mono (by decide))

include h hf hplan in
theorem check_conditions_ne_nil {c : Check} (hc : c ∈ p.checks) : c.conditions ≠ [] := by
  rw [hplan.checks] at hc
  obtain ⟨f, hmem, hc⟩ := List.mem_flatMap.1 hc
  obtain ⟨d, hd⟩ := (frameRules h hf hmem).anchor
  have hconditions (k : Nat) : f.conditionsFrom k ≠ [] :=
    List.ne_nil_of_mem (List.mem_map_of_mem (List.mem_of_getElem? hd))
  unfold Frame.checks at hc
  rcases List.mem_cons.1 hc with rfl | hc
  · exact hconditions f.anchor
  · obtain ⟨k, -, rfl⟩ := List.mem_map.1 hc
    exact hconditions k

include h hf hplan hnames hreach hwidth in
theorem fits_check {c : Check} (hc : c ∈ p.checks) :
    (ProcessModule.check c).code.Fits width 1 := by
  obtain ⟨horigin, hconditions⟩ := hplan.check_declared h hf hc
  apply ProcessModule.fits_check hwidth
  · exact hnames.procedures _
      (List.mem_append_left _ (List.mem_append_left _ (List.mem_map_of_mem hc)))
  · exact check_conditions_ne_nil h hf hplan hc
  · intro q hq
    obtain ⟨hspecies, htype⟩ := hconditions q hq
    exact ⟨hnames.species _ hspecies, hnames.placed htype (hreach.checks c hc q hq) horigin⟩

include h hf hplan hnames hreach hwidth in
theorem fits_update (hdefault : m.defaultSpecies ∈ m.species) {u : Update} (hu : u ∈ p.updates)
    (hroomy : m.Roomy width u.tree) : (update (nameOf m) u).code.Fits width 1 := by
  have hevent : u.event ∈ m.events := hplan.map_event_updates ▸ List.mem_map_of_mem hu
  obtain ⟨-, -, htype⟩ := mem_events_iff.1 hevent
  obtain ⟨hbefore, hafter⟩ := hplan.update_declared hdefault hu
  apply ProcessModule.fits_update hwidth
  · exact hnames.procedures _
      (List.mem_append_left _ (List.mem_append_right _ (List.mem_map_of_mem hu)))
  · exact hnames.species _ hbefore
  · exact hnames.species _ hafter
  · exact hroomy.fits_treeBody h (hplan.knows_update h hf hu) (hreach.updates u hu) htype

include hplan in
theorem touchup_declared {t : Touchup} (ht : t ∈ p.touchups) : (t.layer, t.site) ∈ m.siteTypes := by
  rw [← hplan.map_siteType_touchups]
  exact List.mem_map_of_mem (f := fun t : Touchup => (t.layer, t.site)) ht

include h hf hplan hnames hreach hwidth in
theorem fits_touchup {t : Touchup} (ht : t ∈ p.touchups) (hroomy : m.Roomy width t.tree) :
    (touchup (nameOf m) t).code.Fits width 1 := by
  apply ProcessModule.fits_touchup hwidth
  · exact hnames.procedures _ (List.mem_append_right _ (List.mem_map_of_mem ht))
  · intro n hn
    obtain ⟨q, hq, hname⟩ := exists_nameOf (hplan.removals_declared h hf ht n hn)
    rw [hname]
    exact hnames.processes q hq
  · exact hroomy.fits_treeBody h (hplan.knows_touchup h hf ht) (hreach.touchups t ht)
      (touchup_declared hplan ht)

include hplan hnames hwidth in
theorem fits_touchupSite : (touchupSite p.touchups).code.Fits width 1 := by
  apply ProcessModule.fits_touchupSite hwidth
  intro t ht
  have hconstant := (hnames.siteTypes _ (touchup_declared hplan ht)).short
  refine ⟨Nat.le_trans (Nat.le_of_lt hconstant) (by decide), ?_⟩
  exact hnames.procedures _ (List.mem_append_right _ (List.mem_map_of_mem ht))

include h hf hplan in
theorem dispatch_declared {d : Dispatch} (hd : d ∈ p.dispatch) :
    (∃ q ∈ m.processes, d.name = q.name) ∧ (d.anchor.layer, d.anchor.site) ∈ m.siteTypes := by
  constructor
  · have hname : d.name ∈ m.processes.map (·.name) :=
      hplan.map_name_dispatch hf ▸ List.mem_map_of_mem hd
    obtain ⟨q, hq, hname⟩ := List.mem_map.1 hname
    exact ⟨q, hq, hname.symm⟩
  · obtain ⟨f, hmem, hdispatch⟩ := forall₂_mem (Frame.dispatches_forall₂ hplan.dispatch) hd
    have hanchor : d.anchor = f.anchorCoord := by
      unfold Frame.dispatch at hdispatch
      simp only [bind_eq_ok_iff, pure_eq_ok_iff] at hdispatch
      obtain ⟨_, -, rfl⟩ := hdispatch
      rfl
    rw [hanchor]
    exact h.hasSiteType_iff.1 (frameRules h hf hmem).declares_anchor.1

include h hf hplan hnames hreach hwidth in
theorem fits_runProcess (hp : m.compile = .ok p) : (runProcess p.dispatch).code.Fits width 1 := by
  apply ProcessModule.fits_runProcess hwidth
  intro d hd
  obtain ⟨⟨q, hq, hname⟩, horigin⟩ := dispatch_declared h hf hplan hd
  have hshort := (hnames.processes q hq).short
  refine ⟨by rw [hname]; omega, ?_⟩
  intro s hs
  obtain ⟨u, hcall, -, -⟩ := (hplan.closed h hf hp).calls d hd s hs
  have hu : u ∈ p.updates := hcall.mem_updates
  have hevent : s.event ∈ m.events :=
    hcall.event ▸ hplan.map_event_updates ▸ List.mem_map_of_mem hu
  obtain ⟨-, -, htype⟩ := mem_events_iff.1 hevent
  refine ⟨?_, hnames.placed htype (hreach.dispatch d hd s hs) horigin⟩
  rw [← hcall.name]
  exact hnames.procedures _
    (List.mem_append_left _ (List.mem_append_right _ (List.mem_map_of_mem hu)))

include h hplan hnames hwidth in
theorem fits_nameTables : ∀ q ∈ [
      nameTable "get_proc_name" "proc" (m.processes.map (·.name)),
      nameTable "get_species_name" "species" m.species,
      nameTable "get_site_name" "site_type" (p.sites.map (·.name))], q.code.Fits width 1 := by
  rw [hplan.map_name_sites]
  simp only [List.forall_mem_cons]
  refine ⟨?_, ?_, ?_, List.forall_mem_nil _⟩
  · apply fits_nameTable hwidth (by decide) (by decide) (by decide) (by decide)
    rw [List.forall_mem_map]
    intro q hq
    have hshort := (hnames.processes q hq).short
    exact ⟨h.isIdentifier_process hq, by omega⟩
  · apply fits_nameTable hwidth (by decide) (by decide) (by decide) (by decide)
    intro s hs
    exact ⟨h.isIdentifier_species hs, Nat.le_of_lt_succ (hnames.species s hs).short⟩
  · apply fits_nameTable hwidth (by decide) (by decide) (by decide) (by decide)
    rw [List.forall_mem_map]
    intro t ht
    have hshort := (hnames.siteTypes t ht).short
    exact ⟨h.isIdentifier_siteConstant ht, by omega⟩

end Procedures

/-! ### Declarations -/

theorem isWord_count {n : Nat} (hn : n < 2 ^ 64) : IsWord 64 (toString n).toList :=
  (isWord_toString (by decide) (Nat.lt_trans hn (by decide : 2 ^ 64 < 10 ^ 20))).mono (by decide)

section Declarations

variable (h : m.Rules) (hplan : p.CompiledFrom m frames) (hsized : m.MachineSized)
  (hnames : m.ShortNames p) (hwidth : width ≤ 8)

include h hplan hsized hnames hwidth in
theorem fits_latticeDeclarations (hp : m.compile = .ok p) :
    (LatticeModule.declarations m p).Fits width 1 := by
  have hdimension := h.dimension
  have hsites : ∀ s ∈ p.sites, IsWord 64 s.name.toList ∧ IsWord 64 (toString s.index).toList := by
    rw [hplan.sites, siteConstants, List.forall_mem_map]
    intro ref href
    have htype : (ref.layer, ref.site) ∈ m.siteTypes := by
      rw [← map_sites]
      exact List.mem_map_of_mem (f := fun s : SiteRef => (s.layer, s.site)) href
    have hindex : ref.index ≤ m.sitesPerCell := by
      obtain ⟨i, hi⟩ := List.getElem?_of_mem href
      rw [sites_getElem?] at hi
      obtain ⟨t, ht, rfl⟩ := Option.map_eq_some_iff.1 hi
      obtain ⟨hlt, -⟩ := List.getElem?_eq_some_iff.1 ht
      rw [← length_siteTypes]
      exact hlt
    exact ⟨(hnames.siteTypes _ htype).mono (by decide),
      isWord_count (Nat.lt_of_le_of_lt hindex hsized.sites)⟩
  unfold LatticeModule.declarations
  rw [formula_of_compile hp]
  simp only [Code.fits_append, Code.fits_blank, Code.fits_comment, Code.fits_statement, and_true]
  refine ⟨⟨fits_parameters hwidth ?_, fits_parameters hwidth ?_⟩,
    fits_of_short (by decide) hwidth (by decide)⟩
  · simp only [List.forall_mem_cons]
    exact ⟨⟨by decide, isWord_count (show m.dimension < 2 ^ 64 by omega)⟩,
      ⟨by decide, isWord_count hsized.sites⟩, ⟨by decide, isWord_count hsized.layers⟩,
      List.forall_mem_nil _⟩
  · rw [List.forall_mem_map]
    exact hsites

include hsized hnames hwidth in
theorem fits_processDeclarations (hdefault : m.defaultSpecies ∈ m.species) :
    (ProcessModule.declarations m).Fits width 1 := by
  unfold ProcessModule.declarations
  simp only [Code.fits_append, Code.fits_blank, Code.fits_comment, and_true]
  refine ⟨⟨⟨fits_parameters hwidth ?_, fits_parameters hwidth ?_⟩, fits_parameters hwidth ?_⟩, ?_⟩
  · simp only [List.forall_mem_cons]
    exact ⟨⟨by decide, isWord_count hsized.species⟩, ⟨by decide, isWord_count hsized.processes⟩,
      List.forall_mem_nil _⟩
  · rw [List.forall_mem_map]
    rintro ⟨name, i⟩ hmem
    have hget := List.mem_zipIdx_iff_getElem?.1 hmem
    obtain ⟨hlt, -⟩ := List.getElem?_eq_some_iff.1 hget
    exact ⟨hnames.species name (List.mem_of_getElem? hget),
      isWord_count (Nat.lt_trans hlt hsized.species)⟩
  · rw [List.forall_mem_singleton]
    exact ⟨show IsWord 64 "default_species".toList by decide, hnames.species _ hdefault⟩
  · rw [Code.fits_flatMap]
    intro np hnp
    obtain ⟨⟨q, i⟩, hmem, rfl⟩ := List.mem_map.1 hnp
    have hget := List.mem_zipIdx_iff_getElem?.1 hmem
    obtain ⟨hlt, -⟩ := List.getElem?_eq_some_iff.1 hget
    unfold processConstant
    rw [Code.fits_append]
    refine ⟨Code.fits_comment _, fits_parameters hwidth ?_⟩
    rw [List.forall_mem_singleton]
    exact ⟨(hnames.processes q (List.mem_of_getElem? hget)).mono (by decide),
      isWord_count (Nat.lt_of_le_of_lt hlt hsized.processes)⟩

end Declarations

/-! ### Modules -/

section Modules

variable (h : m.Rules) (hp : m.compile = .ok p) (hsized : m.MachineSized)
  (hnames : ∀ name ∈ p.identifiers m, byteLength name.toList ≤ 63) (hwidth : width ≤ 8)

include h hp hsized hnames hwidth in
theorem fits_latticeModule : (latticeModule m p).code.Fits width 0 := by
  obtain ⟨frames, hf, hplan⟩ := compile_eq_ok hp
  have hshort := h.shortNames hf hplan hnames
  have hname : (latticeModule m p).name = "lattice" := rfl
  have himports : ∀ text ∈ LatticeModule.imports, IsShort text := by decide +kernel
  apply SourceModule.fits_code hwidth hname (by decide) (by decide) himports
  · exact fits_latticeDeclarations h hplan hsized hshort hwidth hp
  · apply LatticeModule.fits_procedures ?_ hwidth
    rw [formula_of_compile hp]
    exact h.dimension

include h hp hsized hnames hwidth in
theorem fits_processModule (hdefault : m.defaultSpecies ∈ m.species)
    (hroomy : ∀ t ∈ p.updates.map (·.tree) ++ p.touchups.map (·.tree), m.Roomy width t) :
    (processModule m p).code.Fits width 0 := by
  obtain ⟨frames, hf, hplan⟩ := compile_eq_ok hp
  have hshort := h.shortNames hf hplan hnames
  have hreach := hplan.inReach hsized h hf hp
  obtain ⟨hupdates, htouchups⟩ := List.forall_mem_append.1 hroomy
  have hname : (processModule m p).name = "proclist" := rfl
  have himports : ∀ text ∈ ProcessModule.imports, IsShort text := by decide
  apply SourceModule.fits_code hwidth hname (by decide) (by decide) himports
  · exact fits_processDeclarations hsized hshort hwidth hdefault
  · change ∀ q ∈ ProcessModule.procedures m p, _
    unfold ProcessModule.procedures
    have htables := fits_nameTables h hplan hshort hwidth
    simp only [List.forall_mem_cons] at htables
    simp only [List.forall_mem_append, List.forall_mem_map, List.forall_mem_cons]
    exact ⟨⟨⟨fun c hc => fits_check h hf hplan hshort hreach hwidth hc,
        fun u hu => fits_update h hf hplan hshort hreach hwidth hdefault hu
          (hupdates _ (List.mem_map_of_mem hu))⟩,
        fun t ht => fits_touchup h hf hplan hshort hreach hwidth ht
          (htouchups _ (List.mem_map_of_mem ht))⟩,
      fits_touchupSite hplan hshort hwidth, fits_runProcess h hf hplan hshort hreach hwidth hp,
      fits_step hwidth, fits_resetState hwidth, htables⟩

end Modules

end Model

theorem Settings.indent_le_of_validate {s : Settings} {u : Unit} (h : s.validate = .ok u) :
    s.indent ≤ 8 := by
  unfold validate at h
  simp only [ite_error_eq_ok_iff, not_or] at h
  exact Nat.le_of_not_lt h.2.2.2.1.2

/-- Where all decision trees leave room for the words of their statements, every line of both files
is a comment or has at most `maxLine` bytes. -/
theorem code_lines_fit_where_trees_leave_room {d : Draft} {m : Model} {p : Plan} {s : Settings}
    {t : Sources} (hd : d.build = .ok m) (hp : m.compile = .ok p) (ht : m.generate p s = .ok t)
    (hsized : m.MachineSized)
    (hroomy : ∀ tree ∈ p.updates.map (·.tree) ++ p.touchups.map (·.tree), m.Roomy s.indent tree) :
    ∀ line ∈ linesOf t.lattice ++ linesOf t.proclist,
      isComment line = true ∨ byteLength line ≤ maxLine := by
  obtain ⟨hm, hdefault⟩ := Draft.build_eq_ok hd
  rw [Model.generate_own hp] at ht
  simp only [bind_eq_ok_iff, mapError_eq_ok_iff, checkIdentifiers_eq_ok_iff, pure_eq_ok_iff] at ht
  obtain ⟨_, hvalid, _, hnames, rfl⟩ := ht
  have hwidth := Settings.indent_le_of_validate hvalid
  dsimp only
  unfold SourceModule.render
  intro line hline
  rcases List.mem_append.1 hline with hline | hline
  · have hfits := Model.fits_latticeModule hm hp hsized hnames hwidth
    exact Code.line_fits (plain_latticeModule m p) hfits hline
  · have hfits := Model.fits_processModule hm hp hsized hnames hwidth hdefault hroomy
    exact Code.line_fits (plain_processModule hm p) hfits hline

/-- Updates that ask about one neighbour are far from the limit. -/
theorem shared_neighbour_lines_fit :
    ∃ m p t, Samples.sharedNeighbourChain.build = .ok m ∧ m.compile = .ok p ∧
      m.generate p {} = .ok t ∧ ∀ line ∈ linesOf t.lattice ++ linesOf t.proclist,
        isComment line = true ∨ byteLength line ≤ maxLine := by
  have h : (do
      let m ← Samples.sharedNeighbourChain.build.toOption
      let p ← m.compile.toOption
      let _ ← (checkIdentifiers (p.identifiers m)).toOption
      guard (m.MachineSized ∧
        ∀ tree ∈ p.updates.map (·.tree) ++ p.touchups.map (·.tree), m.Roomy 4 tree)) =
      some () := by
    decide +kernel
  simp only [Option.bind_eq_bind, Option.bind_eq_some_iff, toOption_eq_some_iff,
    Option.guard_eq_some'] at h
  obtain ⟨m, hm, p, hp, _, hchecked, hsized, hroomy⟩ := h
  have hgenerate := Model.generate_own hp {}
  rw [hchecked] at hgenerate
  exact ⟨m, p, _, hm, hp, hgenerate,
    code_lines_fit_where_trees_leave_room hm hp hgenerate hsized hroomy⟩

def crowdedChain : Draft where
  dimension := 1
  species := ["empty"]
  layers := [Samples.plainLayer]
  processes := [Samples.process "p" "k"
    ((List.range 17).map fun i => (Samples.plain [(i : Int)], "empty")) []]

def lastQuery : Line :=
  ⟨18, .statement "select case(get_species(site + (/16, 0, 0, 0/)))"⟩

theorem lastQuery_physical :
    spaces 76 ++ "& case(get_species(site + (/16, 0, 0, 0/)))".toList ∈ lastQuery.physical 4 := by
  have htext : trimRight lastQuery.content.text.toList = "select".toList ++
      ' ' :: ("case(get_species(site".toList ++ " + (/16, 0, 0, 0/)))".toList) := by
    decide
  have hbreak : breakAt? (roomAfter (spaces 72)) ("select".toList ++
      ' ' :: ("case(get_species(site".toList ++ " + (/16, 0, 0, 0/)))".toList)) = some 6 := by
    decide
  have hphysical : lastQuery.physical 4 = breakStatement (spaces 72)
      (spaces 72 ++ spaces 4 ++ ['&', ' ']) (trimRight lastQuery.content.text.toList) := rfl
  rw [hphysical, htext, breakStatement_of_breakAt? hbreak,
    breakStatement_of_long_word (by decide) (by decide)]
  decide

/-- Nested that deep, queries do not fit. -/
theorem crowded_chain_has_overlong_line :
    ∃ m p t, crowdedChain.build = .ok m ∧ m.compile = .ok p ∧ m.generate p {} = .ok t ∧
      ∃ line ∈ linesOf t.proclist, isComment line = false ∧ maxLine < byteLength line := by
  have h : (do
      let m ← crowdedChain.build.toOption
      let p ← m.compile.toOption
      let _ ← (checkIdentifiers (p.identifiers m)).toOption
      guard (lastQuery ∈ (processModule m p).code)) = some () := by
    decide +kernel
  simp only [Option.bind_eq_bind, Option.bind_eq_some_iff, toOption_eq_some_iff,
    Option.guard_eq_some'] at h
  obtain ⟨m, hm, p, hp, _, hchecked, hquery⟩ := h
  have hgenerate := Model.generate_own hp {}
  rw [hchecked] at hgenerate
  have hline : spaces 76 ++ "& case(get_species(site + (/16, 0, 0, 0/)))".toList ∈
      linesOf ((processModule m p).render 4) := by
    unfold SourceModule.render
    exact Code.mem_linesOf hquery lastQuery_physical (by decide)
  refine ⟨m, p, _, hm, hp, hgenerate, _, hline, by decide, ?_⟩
  rw [byteLength_append, byteLength_spaces]
  decide

end LatticeKinetics
