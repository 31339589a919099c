import LatticeKinetics.Proofs.OpaqueFields
import LatticeKinetics.Proofs.PlanClosure
import LatticeKinetics.Proofs.TreeProcedures

/-! Inside a generated procedure a name may mean one of its own variables instead of the constant of
a species, a process or a site type. The names that the modules use themselves are kept apart from
those of a model, but the variables of procedures are not among them. -/

namespace LatticeKinetics

open Text

namespace Fortran

/-- The names that mean something of the procedure's own: what it declares and, where it has no
other result, its name. -/
def Procedure.locals (q : Procedure) : List String :=
  q.declared ++ if q.kind = .function ∧ q.result = none then [q.name] else []

/-- Every constant that the procedure names is that of the module. -/
def Procedure.Hygienic (q : Procedure) : Prop :=
  ∀ constant ∈ q.constants, foldCase constant ∉ q.locals.map foldCase

instance (q : Procedure) : Decidable q.Hygienic :=
  List.decidableBAll _ q.constants

namespace Body

def constants (body : Body) : List String :=
  body.flatMap (·.statement.constants)

@[simp] theorem constants_append (body more : Body) :
    constants (body ++ more) = constants body ++ constants more :=
  List.flatMap_append

@[simp] theorem constants_of (statements : List Statement) :
    (of statements).constants = statements.flatMap (·.constants) := by
  simp [of, constants, List.flatMap_map]

@[simp] theorem constants_indent (body : Body) : body.indent.constants = body.constants := by
  simp [indent, constants, List.flatMap_map]

@[simp] theorem constants_branch (constant : String) (body : Body) :
    (branch constant body).constants = constant :: body.constants := by
  simp [branch, Statement.constants]

theorem constants_flatMap {α : Type} (as : List α) (f : α → Body) :
    constants (as.flatMap f) = as.flatMap fun a => (f a).constants := by
  simp [constants, List.flatMap_assoc]

@[simp] theorem constants_selection (selector : String) (cases : Body) :
    (ProcessModule.selection selector cases).constants = cases.constants := by
  simp [ProcessModule.selection, Statement.constants]

end Body

theorem Procedure.constants_eq (q : Procedure) : q.constants = q.body.constants :=
  rfl

theorem SiteExpr.constants_ofCoordinate (coord : Coordinate) (origin : String) :
    (SiteExpr.ofCoordinate coord origin).constants =
      if Model.siteConstant coord.layer coord.site = origin then []
      else [Model.siteConstant coord.layer coord.site, origin] := by
  unfold ofCoordinate
  dsimp only
  by_cases htarget : Model.siteConstant coord.layer coord.site = origin
  · by_cases hanchor : coord.isAnchor = true <;> simp [htarget, hanchor, constants]
  · simp [htarget, constants]

theorem foldCase_siteConstant_ne {layer site name : String} (h : '_' ∉ name.toList) :
    foldCase (Model.siteConstant layer site) ≠ name := by
  rintro rfl
  apply h
  rw [show Model.siteConstant layer site = layer ++ "_" ++ site from rfl, toList_foldCase,
    String.toList_append, String.toList_append, List.map_append, List.map_append]
  exact List.mem_append_left _ (List.mem_append_right _ (by decide))

namespace ProcessModule

theorem hygienic_nameTable_iff {function argument : String} {entries : List String} :
    (nameTable function argument entries).Hygienic ↔
      ∀ entry ∈ entries, foldCase entry ≠ foldCase argument ∧ foldCase entry ≠ "name" := by
  have hconstants : (nameTable function argument entries).constants = entries := by
    rw [Procedure.constants_eq]
    simp [nameTable, Body.constants_flatMap, Statement.constants]
  have hlocals : (nameTable function argument entries).locals =
      [argument, "name", argument, "name"] := rfl
  have hname : foldCase "name" = "name" := by decide
  unfold Procedure.Hygienic
  rw [hconstants, hlocals]
  simp only [List.map_cons, List.map_nil, hname, List.mem_cons, List.not_mem_nil, not_or]
  grind

theorem hygienic_runProcess_iff {dispatch : List Dispatch} :
    (runProcess dispatch).Hygienic ↔ ∀ d ∈ dispatch,
      foldCase d.name ∉ ["proc", "nr_site", "site"] ∧ ∀ s ∈ d.steps,
        ∀ name ∈ (SiteExpr.ofCoordinate s.coord
          (Model.siteConstant d.anchor.layer d.anchor.site)).constants,
          foldCase name ∉ ["proc", "nr_site", "site"] := by
  have hconstants : (runProcess dispatch).constants = dispatch.flatMap fun d =>
      d.name :: d.steps.flatMap fun s => (SiteExpr.ofCoordinate s.coord
        (Model.siteConstant d.anchor.layer d.anchor.site)).constants := by
    rw [Procedure.constants_eq]
    simp [runProcess, Body.constants_flatMap, dispatchCase, Statement.constants, List.flatMap_map]
  have hlocals : (runProcess dispatch).locals =
      ["proc", "nr_site", "proc", "nr_site", "site"] := rfl
  have hfold : (["proc", "nr_site", "proc", "nr_site", "site"].map foldCase) =
      ["proc", "nr_site", "proc", "nr_site", "site"] := by decide
  have hsame (name : String) : name ∈ ["proc", "nr_site", "proc", "nr_site", "site"] ↔
      name ∈ ["proc", "nr_site", "site"] := by
    simp only [List.mem_cons]
    tauto
  unfold Procedure.Hygienic
  rw [hconstants, hlocals, hfold]
  simp only [hsame, List.forall_mem_flatMap, List.forall_mem_cons]

section Trees

variable {names : Nat → String} {layer site : String}

theorem mem_constants_ofCoordinate {coord : Coordinate} {name : String}
    (h : name ∈ (SiteExpr.ofCoordinate coord (Model.siteConstant layer site)).constants) :
    name = Model.siteConstant coord.layer coord.site ∨ name = Model.siteConstant layer site := by
  rw [SiteExpr.constants_ofCoordinate] at h
  split at h
  · exact absurd h List.not_mem_nil
  · exact List.mem_pair.1 h

theorem foldCase_ne_site_of_mem_ofCoordinate {coord : Coordinate} {name : String}
    (h : name ∈ (SiteExpr.ofCoordinate coord (Model.siteConstant layer site)).constants) :
    foldCase name ≠ "site" := by
  rcases mem_constants_ofCoordinate h with rfl | rfl
  · exact foldCase_siteConstant_ne (by decide)
  · exact foldCase_siteConstant_ne (by decide)

theorem foldCase_ne_site_of_mem_effect {e : Effect} (he : foldCase (names e.process) ≠ "site")
    {name : String}
    (h : name ∈ (effect names (Model.siteConstant layer site) e).constants) :
    foldCase name ≠ "site" := by
  cases e with
  | enable process location =>
    rcases List.mem_cons.1 h with rfl | h
    · exact he
    · exact foldCase_ne_site_of_mem_ofCoordinate h
  | disable process location =>
    rcases List.mem_cons.1 h with rfl | h
    · exact he
    · exact foldCase_ne_site_of_mem_ofCoordinate h

mutual

/-- A tree names processes, species, and site types with an underscore in their names. -/
theorem foldCase_ne_site_of_mem_treeBody (t : Tree Effect)
    (hprocesses : ∀ e ∈ t.payloads, foldCase (names e.process) ≠ "site")
    (hspecies : ∀ s ∈ t.caseSpecies, foldCase s ≠ "site") :
    ∀ name ∈ (treeBody names (Model.siteConstant layer site) t).constants,
      foldCase name ≠ "site" := by
  match t with
  | .done => simp [treeBody, Body.constants]
  | .fire payload rest =>
    have hprocesses := List.forall_mem_cons.1 hprocesses
    have hrest := foldCase_ne_site_of_mem_treeBody rest hprocesses.2 hspecies
    simp only [treeBody, Body.constants_append, Body.constants_of, List.flatMap_singleton,
      List.forall_mem_append]
    exact ⟨fun _ h => foldCase_ne_site_of_mem_effect hprocesses.1 h, hrest⟩
  | .query coord arms rest =>
    have hprocesses := List.forall_mem_append.1 hprocesses
    have hspecies := List.forall_mem_append.1 hspecies
    have harms := foldCase_ne_site_of_mem_armBody arms hprocesses.1 hspecies.1
    have hrest := foldCase_ne_site_of_mem_treeBody rest hprocesses.2 hspecies.2
    simp only [treeBody, Body.constants_append, Body.constants_of, List.flatMap_singleton,
      List.forall_mem_append]
    exact ⟨⟨⟨fun _ h => foldCase_ne_site_of_mem_ofCoordinate h, harms⟩, nofun⟩, hrest⟩

theorem foldCase_ne_site_of_mem_armBody (arms : Arms Effect)
    (hprocesses : ∀ e ∈ arms.payloads, foldCase (names e.process) ≠ "site")
    (hspecies : ∀ s ∈ arms.caseSpecies, foldCase s ≠ "site") :
    ∀ name ∈ (armBody names (Model.siteConstant layer site) arms).constants,
      foldCase name ≠ "site" := by
  match arms with
  | .none => simp [armBody, Body.constants]
  | .case species body others =>
    have hprocesses := List.forall_mem_append.1 hprocesses
    obtain ⟨hown, hspecies⟩ := List.forall_mem_cons.1 hspecies
    have hspecies := List.forall_mem_append.1 hspecies
    have hbody := foldCase_ne_site_of_mem_treeBody body hprocesses.1 hspecies.1
    have hothers := foldCase_ne_site_of_mem_armBody others hprocesses.2 hspecies.2
    simp only [armBody, Body.constants_append, Body.constants_branch, List.forall_mem_append,
      List.forall_mem_cons]
    exact ⟨⟨hown, hbody⟩, hothers⟩

end

theorem hygienic_subroutine_iff {name : String} {body : Body} :
    (siteProcedure .subroutine "" name body).Hygienic ↔
      ∀ constant ∈ body.constants, foldCase constant ≠ "site" := by
  have hfold : foldCase "site" = "site" := by decide
  have hlocals : (siteProcedure .subroutine "" name body).locals = ["site", "site"] := rfl
  unfold Procedure.Hygienic
  rw [hlocals, Procedure.constants_eq]
  simp [siteProcedure, hfold]

end Trees

theorem hygienic_check_iff {c : Check} :
    (check c).Hygienic ↔ ∀ condition ∈ c.conditions,
      (foldCase condition.species ≠ "site" ∧ foldCase condition.species ≠ foldCase c.name) ∧
      ∀ name ∈ (SiteExpr.ofCoordinate condition.coord
        (Model.siteConstant c.origin.layer c.origin.site)).constants,
        foldCase name ≠ foldCase c.name := by
  have hfold : foldCase "site" = "site" := by decide
  have hlocals : (check c).locals = ["site", "site", c.name] := rfl
  have hconstants : (check c).constants = c.conditions.flatMap fun condition =>
      condition.species :: (SiteExpr.ofCoordinate condition.coord
        (Model.siteConstant c.origin.layer c.origin.site)).constants := by
    rw [Procedure.constants_eq]
    simp [check, siteProcedure, Statement.constants, List.flatMap_map]
  unfold Procedure.Hygienic
  rw [hconstants, hlocals]
  simp only [List.map_cons, List.map_nil, hfold, List.forall_mem_flatMap, List.forall_mem_cons]
  simp only [List.mem_cons, List.not_mem_nil, or_false, not_or]
  constructor
  · intro h condition hc
    obtain ⟨⟨-, hsite, hname⟩, hplaces⟩ := h condition hc
    exact ⟨⟨hsite, hname⟩, fun name hmem => (hplaces name hmem).2.2⟩
  · intro h condition hc
    obtain ⟨⟨hsite, hname⟩, hplaces⟩ := h condition hc
    refine ⟨⟨hsite, hsite, hname⟩, ?_⟩
    intro name hmem
    have hne := foldCase_ne_site_of_mem_ofCoordinate hmem
    exact ⟨hne, hne, hplaces name hmem⟩

end ProcessModule

theorem hygienic_lattice {f : Formula} :
    ∀ q ∈ LatticeModule.procedures f, q.Hygienic := by
  intro q hq
  have hconstants : q.constants = [] := by
    rw [Procedure.constants_eq]
    simp only [LatticeModule.procedures, List.mem_cons, List.not_mem_nil, or_false] at hq
    rcases hq with rfl | rfl | rfl | rfl | rfl | rfl | rfl | rfl
    · rfl
    · rfl
    · simp [LatticeModule.toCoord, Statement.constants, List.flatMap_map]
    · rfl
    · rfl
    · rfl
    · rfl
    · rfl
  unfold Procedure.Hygienic
  rw [hconstants]
  exact nofun

end Fortran

open Fortran ProcessModule

namespace Plan.CompiledFrom

variable {p : Plan} {m : Model} {frames : List Frame}

theorem check_declared (h : p.CompiledFrom m frames) (hm : m.Rules) (hf : m.frames = .ok frames)
    {c : Check} (hc : c ∈ p.checks) :
    (c.origin.layer, c.origin.site) ∈ m.siteTypes ∧ ∀ q ∈ c.conditions,
      q.species ∈ m.species ∧ (q.coord.layer, q.coord.site) ∈ m.siteTypes := by
  rw [h.checks] at hc
  obtain ⟨f, hmem, hc⟩ := List.mem_flatMap.1 hc
  have hrules := Model.frameRules hm hf hmem
  have hknows {k : Nat} {d : Placement} (hd : f.conditions[k]? = some d) :
      ∀ q ∈ f.conditionsFrom k,
        q.species ∈ m.species ∧ (q.coord.layer, q.coord.site) ∈ m.siteTypes := by
    intro q hq
    obtain ⟨hreaches, hspecies⟩ := Model.knows_conditionsFrom hm hf hmem hd q hq
    exact ⟨hspecies, hreaches.siteType⟩
  have horigin {k : Nat} {d : Placement} (hd : f.conditions[k]? = some d) :
      ((f.coordAt k).layer, (f.coordAt k).site) ∈ m.siteTypes := by
    rw [Frame.coordAt_of_getElem? hd]
    exact hm.hasSiteType_iff.1 (hrules.conditions d (List.mem_of_getElem? hd)).siteType
  unfold Frame.checks at hc
  rcases List.mem_cons.1 hc with rfl | hc
  · obtain ⟨d, hd⟩ := hrules.anchor
    exact ⟨horigin hd, hknows hd⟩
  · obtain ⟨k, hk, rfl⟩ := List.mem_map.1 hc
    have hlt : k < f.conditions.length := List.mem_range.1 (List.mem_of_mem_filter hk)
    exact ⟨horigin (List.getElem?_eq_getElem hlt), hknows (List.getElem?_eq_getElem hlt)⟩

theorem foldCase_checkName_ne (h : p.CompiledFrom m frames) (hm : m.Rules)
    (hf : m.frames = .ok frames) (hp : m.compile = .ok p) {c : Check} (hc : c ∈ p.checks)
    {name : String} (hname : name ∈ m.constants.map (·.1)) : foldCase name ≠ foldCase c.name := by
  have hnames := hm.generatedNames_nodup hp
  rw [← h.claims_eq hf] at hnames
  unfold Plan.claims at hnames
  rw [List.map_append, List.nodup_append] at hnames
  have hupdates := hnames.1
  rw [List.map_append, List.nodup_append] at hupdates
  have hchecks := hupdates.1
  rw [List.map_append, List.nodup_append] at hchecks
  refine hchecks.2.2 _ ?_ _ (List.mem_map.2 ⟨(c.name, .check), List.mem_map_of_mem hc, rfl⟩)
  rw [Model.map_fst_constants, ← Model.map_sites, List.map_map] at hname
  have hentry {as : List (String × Owner)} {owner : Owner} (hmem : (name, owner) ∈ as) :
      foldCase name ∈ as.map folded :=
    List.mem_map.2 ⟨_, hmem, rfl⟩
  rcases List.mem_append.1 hname with hname | hname
  · rcases List.mem_append.1 hname with hname | hname
    · have hspecies := List.mem_map_of_mem (f := fun s => (s, Owner.species s)) hname
      exact hentry (List.mem_append_left _ (List.mem_append_left _ (List.mem_append_left _
        (List.mem_append_right _ hspecies))))
    · obtain ⟨ref, href, rfl⟩ := List.mem_map.1 hname
      have hsite : SiteConstant.ofSite ref ∈ p.sites := by
        rw [h.sites]
        exact List.mem_map_of_mem href
      have hsites := List.mem_map_of_mem
        (f := fun s : SiteConstant => (s.name, Owner.site s.layer s.site)) hsite
      exact hentry (List.mem_append_left _ (List.mem_append_right _ hsites))
  · obtain ⟨q, hq, rfl⟩ := List.mem_map.1 hname
    have hprocesses := List.mem_map_of_mem
      (f := fun q : Process => (q.name, Owner.process q.name)) hq
    exact hentry (List.mem_append_right _ hprocesses)

theorem map_name_dispatch (h : p.CompiledFrom m frames) (hf : m.frames = .ok frames) :
    p.dispatch.map (·.name) = m.processes.map (·.name) := by
  have hnames := congrArg (List.map Prod.snd) (h.map_dispatch hf)
  rw [List.map_map, List.map_map] at hnames
  have hprocesses : m.processes = m.numberedProcesses.map (·.2) := by
    simp [Model.numberedProcesses, Function.comp_def]
  rw [hprocesses, List.map_map]
  exact hnames

theorem map_name_sites (h : p.CompiledFrom m frames) :
    p.sites.map (·.name) = m.siteTypes.map fun t => Model.siteConstant t.1 t.2 := by
  rw [h.sites, Model.siteConstants, ← Model.map_sites, List.map_map, List.map_map]
  rfl

theorem update_declared (h : p.CompiledFrom m frames) (hdefault : m.defaultSpecies ∈ m.species)
    {u : Update} (hu : u ∈ p.updates) : u.before ∈ m.species ∧ u.after ∈ m.species := by
  have hevent : u.event ∈ m.events := h.map_event_updates ▸ List.mem_map_of_mem hu
  obtain ⟨hspecies, -, -⟩ := Model.mem_events_iff.1 hevent
  obtain ⟨hbefore, hafter⟩ := h.species_update hu
  rw [hbefore, hafter]
  unfold Event.before Event.after
  cases u.event.direction
  · exact ⟨hdefault, hspecies⟩
  · exact ⟨hspecies, hdefault⟩

end Plan.CompiledFrom

/-- The names of the model are not those of variables where procedures name them. Calls on a site
name its type only if it is not that of the site at hand. -/
@[mk_iff]
structure Model.Unshadowed (m : Model) (p : Plan) : Prop where
  species : ∀ s ∈ m.species, foldCase s ≠ "species" ∧ foldCase s ≠ "name"
  siteSpecies : ∀ s ∈ m.species, foldCase s = "site" → m.species = [s] ∧ m.processes = []
  processes : ∀ q ∈ m.processes, foldCase q.name ∉ ["proc", "nr_site", "site", "name"]
  siteTypes : ∀ t ∈ m.siteTypes, foldCase (siteConstant t.1 t.2) ≠ "site_type"
  steps : ∀ d ∈ p.dispatch, ∀ s ∈ d.steps,
    siteConstant s.coord.layer s.coord.site = siteConstant d.anchor.layer d.anchor.site ∨
      foldCase (siteConstant s.coord.layer s.coord.site) ≠ "nr_site" ∧
      foldCase (siteConstant d.anchor.layer d.anchor.site) ≠ "nr_site"

instance (m : Model) (p : Plan) : Decidable (m.Unshadowed p) :=
  decidable_of_iff _ (Model.unshadowed_iff m p).symm

namespace Model

variable {m : Model} {p : Plan} {frames : List Frame}

theorem processes_ne_nil (h : m.Rules) (hf : m.frames = .ok frames) {f : Frame}
    (hmem : f ∈ frames) : m.processes ≠ [] := by
  obtain ⟨i, hi⟩ := List.getElem?_of_mem hmem
  obtain ⟨q, hq, -⟩ := frames_getElem? h hf hi
  exact List.ne_nil_of_mem (List.mem_of_getElem? hq)

theorem exists_nameOf {n : Nat} (hn : (m.process? n).isSome = true) :
    ∃ q ∈ m.processes, nameOf m n = q.name := by
  obtain ⟨q, hq⟩ := Option.isSome_iff_exists.1 hn
  have hmem : q ∈ m.processes := by
    unfold process? at hq
    split at hq
    · contradiction
    · exact List.mem_of_getElem? hq
  refine ⟨q, hmem, ?_⟩
  rw [nameOf, hq]
  rfl

section Hygienic

variable (hu : m.Unshadowed p) (hplan : p.CompiledFrom m frames) (hm : m.Rules)
  (hf : m.frames = .ok frames)

include hu in
theorem Unshadowed.species_ne_site (hne : m.processes ≠ []) {s : String} (hs : s ∈ m.species) :
    foldCase s ≠ "site" :=
  fun heq => hne (hu.siteSpecies s hs heq).2

include hu in
theorem Unshadowed.nameOf_ne_site {n : Nat} (hn : (m.process? n).isSome = true) :
    foldCase (nameOf m n) ≠ "site" := by
  obtain ⟨q, hq, hname⟩ := exists_nameOf hn
  have hfree := hu.processes q hq
  simp only [List.mem_cons, List.not_mem_nil, or_false, not_or] at hfree
  rw [hname]
  exact hfree.2.2.1

include hu hplan hm hf in
theorem Unshadowed.hygienic_check (hp : m.compile = .ok p) {c : Check} (hc : c ∈ p.checks) :
    (ProcessModule.check c).Hygienic := by
  obtain ⟨horigin, hconditions⟩ := hplan.check_declared hm hf hc
  have hprocesses : m.processes ≠ [] := by
    rw [hplan.checks] at hc
    obtain ⟨f, hmem, -⟩ := List.mem_flatMap.1 hc
    exact processes_ne_nil hm hf hmem
  have hne {name : String} (hname : name ∈ m.constants.map (·.1)) :=
    hplan.foldCase_checkName_ne hm hf hp hc hname
  rw [map_fst_constants] at hne
  have hsite {layer site : String} (ht : (layer, site) ∈ m.siteTypes) :
      foldCase (siteConstant layer site) ≠ foldCase c.name :=
    hne (List.mem_append_left _ (List.mem_append_right _ (List.mem_map.2 ⟨_, ht, rfl⟩)))
  rw [hygienic_check_iff]
  intro q hq
  obtain ⟨hspecies, htype⟩ := hconditions q hq
  refine ⟨⟨hu.species_ne_site hprocesses hspecies,
    hne (List.mem_append_left _ (List.mem_append_left _ hspecies))⟩, ?_⟩
  intro name hname
  rcases mem_constants_ofCoordinate hname with rfl | rfl
  · exact hsite htype
  · exact hsite horigin

include hu hplan hm hf in
theorem Unshadowed.hygienic_update (hdefault : m.defaultSpecies ∈ m.species) {u : Update}
    (hmem : u ∈ p.updates) : (update (nameOf m) u).Hygienic := by
  have hevent : u.event ∈ m.events := hplan.map_event_updates ▸ List.mem_map_of_mem hmem
  obtain ⟨hspecies, hne, -⟩ := mem_events_iff.1 hevent
  have hsite : ∀ s ∈ m.species, foldCase s ≠ "site" := by
    intro s hs heq
    have hone := (hu.siteSpecies s hs heq).1
    rw [hone, List.mem_singleton] at hspecies hdefault
    exact hne (hspecies.trans hdefault.symm)
  have hknows := hplan.knows_update hm hf hmem
  obtain ⟨hbefore, hafter⟩ := hplan.update_declared hdefault hmem
  unfold update
  rw [hygienic_subroutine_iff, Body.constants_append, List.forall_mem_append]
  constructor
  · intro constant hconstant
    apply hsite
    rcases List.mem_pair.1 hconstant with rfl | rfl
    · exact hbefore
    · exact hafter
  · exact foldCase_ne_site_of_mem_treeBody u.tree
      (fun e he => hu.nameOf_ne_site (hknows.processes e he))
      (fun s hs => hsite s (hknows.species s hs))

include hu hplan hm hf in
theorem Unshadowed.hygienic_touchup {t : Touchup} (hmem : t ∈ p.touchups) :
    (touchup (nameOf m) t).Hygienic := by
  have hknows := hplan.knows_touchup hm hf hmem
  have hremovals := hplan.removals_declared hm hf hmem
  -- Only the conditions of processes bring species into the tree.
  have hspecies : ∀ s ∈ t.tree.caseSpecies, m.processes ≠ [] := by
    intro s hs
    rw [hplan.touchups] at hmem
    obtain ⟨c, -, rfl⟩ := List.mem_map.1 hmem
    obtain ⟨i, hi, -⟩ := Tree.exists_question_of_mem_caseSpecies hs
    obtain ⟨f, hframe, -⟩ := List.mem_map.1 hi
    exact processes_ne_nil hm hf (List.mem_of_mem_filter hframe)
  unfold touchup
  rw [hygienic_subroutine_iff, Body.constants_append, List.forall_mem_append]
  constructor
  · intro constant hconstant
    simp only [Body.constants_of, List.flatMap_map, List.mem_flatMap] at hconstant
    obtain ⟨n, hn, hconstant⟩ := hconstant
    rw [List.mem_singleton.1 hconstant]
    exact hu.nameOf_ne_site (hremovals n hn)
  · exact foldCase_ne_site_of_mem_treeBody t.tree
      (fun e he => hu.nameOf_ne_site (hknows.processes e he))
      (fun s hs => hu.species_ne_site (hspecies s hs) (hknows.species s hs))

include hu hplan hf in
theorem Unshadowed.hygienic_runProcess : (runProcess p.dispatch).Hygienic := by
  rw [hygienic_runProcess_iff]
  intro d hd
  have hname : d.name ∈ m.processes.map (·.name) :=
    hplan.map_name_dispatch hf ▸ List.mem_map_of_mem hd
  obtain ⟨q, hq, hname⟩ := List.mem_map.1 hname
  have hfree := hu.processes q hq
  rw [hname] at hfree
  simp only [List.mem_cons, List.not_mem_nil, or_false, not_or] at hfree ⊢
  refine ⟨⟨hfree.1, hfree.2.1, hfree.2.2.1⟩, ?_⟩
  intro s hs name hname
  have hproc : foldCase name ≠ "proc" := by
    rcases mem_constants_ofCoordinate hname with rfl | rfl <;>
      exact foldCase_siteConstant_ne (by decide)
  refine ⟨hproc, ?_, foldCase_ne_site_of_mem_ofCoordinate hname⟩
  rw [SiteExpr.constants_ofCoordinate] at hname
  rcases hu.steps d hd s hs with heq | ⟨hthere, hhere⟩
  · simp [heq] at hname
  · split at hname
    · exact absurd hname List.not_mem_nil
    · rcases List.mem_pair.1 hname with rfl | rfl
      · exact hthere
      · exact hhere

end Hygienic

theorem hygienic_touchupSite (touchups : List Touchup) : (touchupSite touchups).Hygienic := by
  unfold touchupSite
  rw [hygienic_subroutine_iff, Body.constants_selection, Body.constants_flatMap]
  intro constant hconstant
  obtain ⟨t, -, hconstant⟩ := List.mem_flatMap.1 hconstant
  rw [Body.constants_branch] at hconstant
  rcases List.mem_cons.1 hconstant with rfl | hconstant
  · exact foldCase_siteConstant_ne (by decide)
  · exact absurd hconstant List.not_mem_nil

/-- If no update names a species that `site` would hide, that species is the only one. -/
theorem species_eq_singleton (hm : m.Rules) (hplan : p.CompiledFrom m frames)
    (hupdates : ∀ u ∈ p.updates, (update (nameOf m) u).Hygienic) {s : String} (hs : s ∈ m.species)
    (hsite : foldCase s = "site") : m.species = [s] := by
  obtain ⟨t, ht⟩ : ∃ t, t ∈ m.siteTypes := by
    apply List.exists_mem_of_length_pos
    rw [length_siteTypes]
    exact hm.sitesPerCell_pos
  have hput {r : String} (hr : r ∈ m.species) (hne : r ≠ m.defaultSpecies) :
      foldCase m.defaultSpecies ≠ "site" ∧ foldCase r ≠ "site" := by
    have hevent : (⟨.put, r, t.1, t.2⟩ : Event) ∈ m.events := mem_events hr hne ht
    rw [← hplan.map_event_updates] at hevent
    obtain ⟨u, hu, hevent⟩ := List.mem_map.1 hevent
    have hhygienic := hupdates u hu
    obtain ⟨hbefore, hafter⟩ := hplan.species_update hu
    rw [hevent] at hbefore hafter
    unfold update at hhygienic
    rw [hygienic_subroutine_iff, Body.constants_append, List.forall_mem_append] at hhygienic
    have hnamed := hhygienic.1
    rw [hbefore, hafter] at hnamed
    exact ⟨hnamed _ List.mem_cons_self, hnamed _ (List.mem_cons_of_mem _ List.mem_cons_self)⟩
  have hdefault : s = m.defaultSpecies := by
    by_contra hne
    exact (hput hs hne).2 hsite
  have hall : ∀ r ∈ m.species, r = s := by
    intro r hr
    by_contra hne
    exact (hput hr (hdefault ▸ hne)).1 (hdefault ▸ hsite)
  have hnodup := hm.species_nodup
  have hreplicate := List.eq_replicate_iff.2 ⟨rfl, hall⟩
  rw [hreplicate, List.nodup_replicate] at hnodup
  have hlength : m.species.length = 1 :=
    Nat.le_antisymm hnodup (List.length_pos_of_mem hs)
  rw [hreplicate, hlength]
  rfl

theorem processes_eq_nil (hm : m.Rules) (hf : m.frames = .ok frames)
    (hplan : p.CompiledFrom m frames)
    (hchecks : ∀ c ∈ p.checks, (ProcessModule.check c).Hygienic) {s : String}
    (hspecies : m.species = [s]) (hsite : foldCase s = "site") : m.processes = [] := by
  by_contra hne
  have hnumbered : m.numberedProcesses ≠ [] := by simpa [numberedProcesses] using hne
  obtain ⟨np, hnp⟩ := List.exists_mem_of_ne_nil _ hnumbered
  obtain ⟨f, hmem, -⟩ := forall₂_mem (Frame.ofProcesses_forall₂ hf).flip hnp
  have hrules := frameRules hm hf hmem
  obtain ⟨c, hc⟩ := hrules.anchor
  have hdeclares := hrules.conditions c (List.mem_of_getElem? hc)
  -- The anchor's check of any process asks for the one species there is.
  have hcheck : f.anchorCheck ∈ p.checks := by
    rw [hplan.checks]
    exact List.mem_flatMap.2 ⟨f, hmem, f.anchorCheck_mem_checks⟩
  have hnamed := hygienic_check_iff.1 (hchecks _ hcheck) _
    (List.mem_map_of_mem (List.mem_of_getElem? hc))
  have hsame : c.species = s := by simpa [hspecies] using hdeclares.species
  exact hnamed.1.1 (hsame ▸ hsite)

theorem forall_procedures_iff :
    (∀ q ∈ (latticeModule m p).procedures ++ (processModule m p).procedures, q.Hygienic) ↔
      (∀ c ∈ p.checks, (ProcessModule.check c).Hygienic) ∧
      (∀ u ∈ p.updates, (update (nameOf m) u).Hygienic) ∧
      (∀ t ∈ p.touchups, (touchup (nameOf m) t).Hygienic) ∧
      (runProcess p.dispatch).Hygienic ∧
      (nameTable "get_proc_name" "proc" (m.processes.map (·.name))).Hygienic ∧
      (nameTable "get_species_name" "species" m.species).Hygienic ∧
      (nameTable "get_site_name" "site_type" (p.sites.map (·.name))).Hygienic := by
  have hlattice : ∀ q ∈ (latticeModule m p).procedures, q.Hygienic := hygienic_lattice
  have hstep : step.Hygienic := by decide
  have hreset : resetState.Hygienic := by decide
  change (∀ q ∈ _ ++ ProcessModule.procedures m p, q.Hygienic) ↔ _
  rw [List.forall_mem_append, and_iff_right hlattice]
  unfold ProcessModule.procedures
  simp only [List.forall_mem_append, List.forall_mem_map, List.forall_mem_cons,
    hygienic_touchupSite, hstep, hreset, implies_true, true_and, and_assoc, List.not_mem_nil,
    false_implies, and_true]

end Model

/-- In the modules of a model that was built and compiles, every constant means that of the module
exactly when no name of the model is that of a variable where it is named. -/
theorem procedures_hygienic_iff_unshadowed {d : Draft} {m : Model} {p : Plan}
    (hd : d.build = .ok m) (hp : m.compile = .ok p) :
    (∀ q ∈ (latticeModule m p).procedures ++ (processModule m p).procedures, q.Hygienic) ↔
      m.Unshadowed p := by
  obtain ⟨hm, hdefault⟩ := Draft.build_eq_ok hd
  obtain ⟨frames, hf, hplan⟩ := Model.compile_eq_ok hp
  have hspeciesFold : foldCase "species" = "species" := by decide
  have hprocFold : foldCase "proc" = "proc" := by decide
  have htypeFold : foldCase "site_type" = "site_type" := by decide
  rw [Model.forall_procedures_iff]
  constructor
  · rintro ⟨hchecks, hupdates, -, hrun, hprocesses, hspecies, hsites⟩
    rw [hygienic_nameTable_iff, hprocFold] at hprocesses
    rw [hygienic_nameTable_iff, hspeciesFold] at hspecies
    rw [hygienic_nameTable_iff, htypeFold, hplan.map_name_sites] at hsites
    rw [hygienic_runProcess_iff] at hrun
    refine ⟨hspecies, ?_, ?_, ?_, ?_⟩
    · intro s hs hsite
      have hone := Model.species_eq_singleton hm hplan hupdates hs hsite
      exact ⟨hone, Model.processes_eq_nil hm hf hplan hchecks hone hsite⟩
    · intro q hq
      have hname : q.name ∈ p.dispatch.map (·.name) :=
        hplan.map_name_dispatch hf ▸ List.mem_map_of_mem hq
      obtain ⟨d, hd, hname⟩ := List.mem_map.1 hname
      have hrunFree := (hrun d hd).1
      have htableFree := hprocesses q.name (List.mem_map_of_mem hq)
      rw [hname] at hrunFree
      simp only [List.mem_cons, List.not_mem_nil, or_false, not_or] at hrunFree ⊢
      exact ⟨hrunFree.1, hrunFree.2.1, hrunFree.2.2, htableFree.2⟩
    · intro t ht
      exact (hsites _ (List.mem_map.2 ⟨t, ht, rfl⟩)).1
    · intro d hd s hs
      have hfree := (hrun d hd).2 s hs
      rw [SiteExpr.constants_ofCoordinate] at hfree
      split at hfree
      · exact .inl ‹_›
      · have hthere := hfree _ List.mem_cons_self
        have hhere := hfree _ (List.mem_cons_of_mem _ List.mem_cons_self)
        simp only [List.mem_cons, not_or] at hthere hhere
        exact .inr ⟨hthere.2.1, hhere.2.1⟩
  · intro hu
    refine ⟨fun c hc => hu.hygienic_check hplan hm hf hp hc,
      fun u hmem => hu.hygienic_update hplan hm hf hdefault hmem,
      fun t hmem => hu.hygienic_touchup hplan hm hf hmem, hu.hygienic_runProcess hplan hf,
      ?_, ?_, ?_⟩
    · rw [hygienic_nameTable_iff, hprocFold, List.forall_mem_map]
      intro q hq
      have hfree := hu.processes q hq
      simp only [List.mem_cons, not_or] at hfree
      exact ⟨hfree.1, hfree.2.2.2.1⟩
    · rw [hygienic_nameTable_iff, hspeciesFold]
      exact hu.species
    · rw [hygienic_nameTable_iff, htypeFold, hplan.map_name_sites, List.forall_mem_map]
      exact fun t ht => ⟨hu.siteTypes t ht, foldCase_siteConstant_ne (by decide)⟩

/-- With two layers, calls name other site types than that of the site at hand. -/
theorem two_layer_procedures_hygienic :
    ∃ m p, Samples.twoLayerChain.build = .ok m ∧ m.compile = .ok p ∧
      ∀ q ∈ (latticeModule m p).procedures ++ (processModule m p).procedures, q.Hygienic := by
  have h : (do
      let m ← Samples.twoLayerChain.build.toOption
      let p ← m.compile.toOption
      guard (m.Unshadowed p)) = some () := by
    decide +kernel
  simp only [Option.bind_eq_bind, Option.bind_eq_some_iff, toOption_eq_some_iff,
    Option.guard_eq_some'] at h
  obtain ⟨m, hm, p, hp, hu⟩ := h
  exact ⟨m, p, hm, hp, (procedures_hygienic_iff_unshadowed hm hp).2 hu⟩

def siteSpecies : Draft where
  dimension := 1
  species := ["empty", "site"]
  layers := [Samples.plainLayer]
  processes := [Samples.adsorb "adsorb" (Samples.plain [0]) "site" "k"]

/-- Putting it on a site replaces what is there by the site's own vector. -/
theorem species_named_site_is_captured :
    ∃ m p t, siteSpecies.build = .ok m ∧ m.compile = .ok p ∧ m.generate p {} = .ok t ∧
      ∃ q ∈ (processModule m p).procedures, q.name = "put_site_default_a" ∧
        "site" ∈ m.species ∧ "site" ∈ q.constants ∧ "site" ∈ q.arguments := by
  have h : (do
      let m ← siteSpecies.build.toOption
      let p ← m.compile.toOption
      let _ ← (checkIdentifiers (p.identifiers m)).toOption
      guard (∃ q ∈ (processModule m p).procedures, q.name = "put_site_default_a" ∧
        "site" ∈ m.species ∧ "site" ∈ q.constants ∧ "site" ∈ q.arguments)) = some () := by
    decide +kernel
  simp only [Option.bind_eq_bind, Option.bind_eq_some_iff, toOption_eq_some_iff,
    Option.guard_eq_some'] at h
  obtain ⟨m, hm, p, hp, _, hchecked, hq⟩ := h
  have hgenerate := Model.generate_own hp {}
  rw [hchecked] at hgenerate
  exact ⟨m, p, _, hm, hp, hgenerate, hq⟩

end LatticeKinetics
