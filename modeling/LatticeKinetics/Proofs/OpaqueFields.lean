import LatticeKinetics.Output.Sources
import LatticeKinetics.Proofs.Compilation
import LatticeKinetics.Proofs.SourceLines
import LatticeKinetics.Proofs.SourceTokens
import LatticeKinetics.Samples
import Mathlib.Data.Option.Basic

/-! Rate constants, cell sizes and positions of sites mean nothing to the generated code. Without
them a model compiles to the same plan, and the generated texts differ in comments only. -/

namespace LatticeKinetics

open Text

/-! ### Models without their opaque fields -/

def Process.bare (p : Process) : Process :=
  { p with rateConstant := "" }

def Layer.bare (l : Layer) : Layer :=
  { name := l.name, sites := l.siteNames.map fun name => { name } }

/-- The model with default values in its opaque fields. -/
def Model.bare (m : Model) : Model :=
  { m with layers := m.layers.map Layer.bare, processes := m.processes.map Process.bare }

def Frame.bare (f : Frame) : Frame :=
  { f with process := f.process.bare }

def Classification.Occurrence.bare (o : Occurrence) : Occurrence :=
  { o with frame := o.frame.bare }

def Plan.unsigned (p : Plan) : Plan :=
  { p with fingerprint := 0 }

theorem Plan.eq_of_unsigned {p p' : Plan} (h : p.unsigned = p'.unsigned)
    (hfingerprint : p.fingerprint = p'.fingerprint) : p = p' := by
  obtain ⟨word, formula, sites, checks, updates, touchups, dispatch⟩ := p
  obtain rfl : word = p'.fingerprint := hfingerprint
  rw [unsigned, unsigned, mk.injEq] at h
  obtain ⟨-, rfl, rfl, rfl, rfl, rfl, rfl⟩ := h
  rfl

namespace Model

@[simp] theorem defaultSpecies_bare (m : Model) : m.bare.defaultSpecies = m.defaultSpecies :=
  rfl

@[simp] theorem conversions_bare (m : Model) : m.bare.conversions = m.conversions :=
  rfl

@[simp] theorem layers_bare (m : Model) : m.bare.layers = m.layers.map Layer.bare :=
  rfl

@[simp] theorem processes_bare (m : Model) : m.bare.processes = m.processes.map Process.bare :=
  rfl

end Model

namespace Layer

@[simp] theorem length_sites_bare (l : Layer) : l.bare.sites.length = l.sites.length := by
  simp [bare, siteNames]

@[simp] theorem siteNames_bare (l : Layer) : l.bare.siteNames = l.siteNames := by
  simp [bare, siteNames, Function.comp_def]

@[simp] theorem sitePosition?_bare (l : Layer) (site : String) :
    l.bare.sitePosition? site = l.sitePosition? site := by
  simp [bare, siteNames, sitePosition?, List.findIdx?_map, Function.comp_def]

end Layer

namespace Frame

theorem ofProcess_bare (m : Model) (number : Nat) (p : Process) :
    ofProcess m.bare number p.bare = (ofProcess m number p).map bare := by
  unfold ofProcess
  rw [show p.bare.anchor? = p.anchor? from rfl, show p.bare.conditions = p.conditions from rfl,
    show p.bare.actions = p.actions from rfl, Model.conversions_bare]
  split
  · rename_i origin _ _
    cases framePlacements origin.coord m.conversions p.conditions with
    | error => rfl
    | ok conditions => cases framePlacements origin.coord m.conversions p.actions <;> rfl
  · rfl

theorem ofProcesses_bare (m : Model) (ps : List (Nat × Process)) :
    ofProcesses m.bare (ps.map fun p => (p.1, p.2.bare)) =
      (ofProcesses m ps).map (List.map bare) := by
  induction ps with
  | nil => rfl
  | cons p ps ih =>
    rw [List.map_cons, ofProcesses, ofProcesses, ofProcess_bare, ih]
    cases ofProcess m p.1 p.2 with
    | error => rfl
    | ok frame => cases ofProcesses m ps <;> rfl

theorem steps_bare (f : Frame) (defaultSpecies : String) (actions : List Placement) :
    f.bare.steps defaultSpecies actions = f.steps defaultSpecies actions := by
  induction actions with
  | nil => rfl
  | cons action actions ih =>
    rw [steps, steps, ih, show f.bare.conditionAt? = f.conditionAt? from rfl]
    rfl

theorem dispatches_bare (defaultSpecies : String) (fs : List Frame) :
    dispatches defaultSpecies (fs.map bare) = dispatches defaultSpecies fs := by
  induction fs with
  | nil => rfl
  | cons f fs ih =>
    rw [List.map_cons, dispatches, dispatches, ih, dispatch, dispatch, steps_bare]
    rfl

theorem flatMap_checks_bare (fs : List Frame) :
    (fs.map bare).flatMap (·.checks) = fs.flatMap (·.checks) := by
  rw [List.flatMap_map]
  rfl

end Frame

namespace Model

theorem sitesPerCell_bare (m : Model) : m.bare.sitesPerCell = m.sitesPerCell := by
  unfold sitesPerCell bare
  rw [List.flatMap_map, List.length_flatMap, List.length_flatMap]
  simp only [Layer.length_sites_bare]

theorem formula_bare (m : Model) : m.bare.formula = m.formula := by
  rw [formula, sitesPerCell_bare]
  rfl

theorem numberedProcesses_bare (m : Model) :
    m.bare.numberedProcesses = m.numberedProcesses.map fun p => (p.1, p.2.bare) := by
  unfold numberedProcesses
  rw [processes_bare, List.zipIdx_map, List.map_map, List.map_map]
  rfl

theorem frames_bare (m : Model) : m.bare.frames = m.frames.map (List.map Frame.bare) := by
  rw [frames, numberedProcesses_bare, Frame.ofProcesses_bare]
  rfl

theorem sites_bare (m : Model) : m.bare.sites = m.sites := by
  have hnames (l : Layer) : (l.sites.map fun s => (l.name, s.name)) =
      l.siteNames.map (Prod.mk l.name) := by
    simp [Layer.siteNames]
  unfold sites
  simp only [hnames]
  rw [layers_bare, List.flatMap_map]
  simp only [Layer.siteNames_bare]
  rfl

theorem findSite_bare (layer site : String) (before : Nat) (layers : List Layer) :
    findSite layer site before (layers.map Layer.bare) = findSite layer site before layers := by
  induction layers generalizing before with
  | nil => rfl
  | cons l layers ih =>
    rw [List.map_cons, findSite, findSite, ih, Layer.sitePosition?_bare, Layer.length_sites_bare]
    rfl

theorem siteIndex_bare (m : Model) (layer site : String) :
    m.bare.siteIndex layer site = m.siteIndex layer site :=
  findSite_bare layer site 0 m.layers

theorem events_bare (m : Model) : m.bare.events = m.events := by
  rw [events, sites_bare]
  rfl

end Model

namespace Classification

theorem touched_bare (fs : List Frame) (e : Event) :
    touched (fs.map Frame.bare) e = (touched fs e).map Occurrence.bare := by
  have hoccurrences : occurrences (fs.map Frame.bare) =
      (occurrences fs).map Occurrence.bare := by
    unfold occurrences
    rw [List.flatMap_map, List.map_flatMap]
    apply List.flatMap_congr
    intro f _
    rw [List.map_map]
    rfl
  unfold touched
  rw [hoccurrences, List.filter_map]
  rfl

theorem ofEvent_bare (m : Model) (fs : List Frame) (e : Event) :
    ofEvent m.bare (fs.map Frame.bare) e = ofEvent m fs e := by
  have hambiguous : ambiguous? m.defaultSpecies e ((touched fs e).map Occurrence.bare) =
      (ambiguous? m.defaultSpecies e (touched fs e)).map Occurrence.bare := by
    unfold ambiguous?
    rw [List.find?_map]
    rfl
  have hmatching (species : String) :
      ((touched fs e).map Occurrence.bare).filter (·.condition.species == species) =
        ((touched fs e).filter (·.condition.species == species)).map Occurrence.bare := by
    rw [List.filter_map]
    rfl
  unfold ofEvent
  rw [Model.siteIndex_bare, touched_bare, show m.bare.requireSpecies = m.requireSpecies from rfl,
    Model.defaultSpecies_bare]
  dsimp only
  rw [hambiguous, hmatching, hmatching, List.map_map, List.map_map]
  cases ambiguous? m.defaultSpecies e (touched fs e) <;> rfl

theorem ofEvents_bare (m : Model) (fs : List Frame) (es : List Event) :
    ofEvents m.bare (fs.map Frame.bare) es = ofEvents m fs es := by
  induction es with
  | nil => rfl
  | cons e es ih => rw [ofEvents, ofEvents, ofEvent_bare, ih]

end Classification

namespace Model

theorem siteConstants_bare (m : Model) : m.bare.siteConstants = m.siteConstants := by
  rw [siteConstants, sites_bare]
  rfl

theorem touchup_bare (s : SiteConstant) (fs : List Frame) :
    s.touchup (fs.map Frame.bare) = s.touchup fs := by
  have hanchored : s.anchored (fs.map Frame.bare) = (s.anchored fs).map Frame.bare := by
    unfold SiteConstant.anchored
    rw [List.filter_map]
    rfl
  unfold SiteConstant.touchup
  rw [hanchored, List.map_map, List.map_map]
  rfl

theorem claims_bare (m : Model) (p : Plan) (fingerprint : UInt64) :
    Plan.claims m.bare { p with fingerprint } = p.claims m := by
  unfold Plan.claims
  rw [layers_bare, processes_bare, List.map_map, List.map_map]
  rfl

/-- Without its opaque fields a model compiles to the same plan, up to the fingerprint, or fails to
compile in the same way. -/
theorem compile_bare (m : Model) :
    m.bare.compile.map Plan.unsigned = m.compile.map Plan.unsigned := by
  unfold compile
  rw [formula_bare, frames_bare]
  cases m.formula with
  | error => rfl
  | ok formula =>
    cases m.frames with
    | error => rfl
    | ok frames =>
      have hclassify : m.bare.classifyWith (frames.map Frame.bare) = m.classifyWith frames := by
        rw [classifyWith, events_bare, Classification.ofEvents_bare]
        rfl
      have hdispatch := Frame.dispatches_bare m.defaultSpecies frames
      have htouchups : (m.siteConstants.map fun s => s.touchup (frames.map Frame.bare)) =
          m.siteConstants.map fun s => s.touchup frames :=
        List.map_congr_left fun s _ => touchup_bare s frames
      dsimp only [Except.mapError, Except.map, bind, Except.bind]
      rw [hclassify, defaultSpecies_bare, hdispatch, siteConstants_bare, htouchups,
        Frame.flatMap_checks_bare]
      cases m.classifyWith frames with
      | error => rfl
      | ok classifications =>
        cases Frame.dispatches m.defaultSpecies frames with
        | error => rfl
        | ok dispatch =>
          dsimp only
          rw [claims_bare m ⟨m.fingerprint, formula, m.siteConstants, frames.flatMap (·.checks),
            classifications.map (·.update m.defaultSpecies), m.siteConstants.map (·.touchup frames),
            dispatch⟩ m.bare.fingerprint]
          cases Plan.checkClaims [] _ <;> rfl

end Model

/-! ### Generated texts -/

def Process.flatRate (q : Process) : List Char :=
  q.rateConstant.toList.map fun c => if c = '\n' then ' ' else c

theorem Process.not_mem_flatRate (q : Process) : '\n' ∉ q.flatRate := by
  intro hmem
  obtain ⟨c, -, hc⟩ := List.mem_map.1 hmem
  split at hc
  · exact absurd hc (by decide)
  · contradiction

theorem Model.Rules.isIdentifier_process {m : Model} (h : m.Rules) {q : Process}
    (hq : q ∈ m.processes) : isIdentifier q.name = true :=
  h.names.identifiers q.name (List.mem_append_right _ (List.mem_map_of_mem hq))

namespace Fortran

open ProcessModule

theorem nameOf_bare (m : Model) : nameOf m.bare = nameOf m := by
  funext process
  have hprocess : m.bare.process? process = (m.process? process).map Process.bare := by
    unfold Model.process?
    split
    · rfl
    · exact List.getElem?_map
  rw [nameOf, nameOf, hprocess, Option.map_map]
  rfl

theorem procedures_bare (m : Model) (p : Plan) :
    procedures m.bare p.unsigned = procedures m p := by
  unfold procedures
  rw [nameOf_bare, Model.processes_bare, List.map_map]
  rfl

theorem outline_declarations_bare (m : Model) :
    (declarations m.bare).outline = (declarations m).outline := by
  have hconstants : Code.outline (m.bare.numberedProcesses.flatMap processConstant) =
      Code.outline (m.numberedProcesses.flatMap processConstant) := by
    unfold Code.outline
    rw [Model.numberedProcesses_bare, List.flatMap_map, List.map_flatMap, List.map_flatMap]
    rfl
  unfold declarations
  rw [Code.outline_append, hconstants, Code.outline_append _ (m.numberedProcesses.flatMap _),
    Model.processes_bare, List.length_map]
  rfl

theorem outline_latticeModule_bare (m : Model) (p : Plan) :
    (latticeModule m.bare p.unsigned).code.outline = (latticeModule m p).code.outline := by
  refine SourceModule.outline_code rfl rfl ?_ rfl
  change Code.outline (LatticeModule.declarations m.bare p.unsigned) = _
  unfold LatticeModule.declarations
  rw [Model.layers_bare, List.length_map]
  rfl

theorem outline_processModule_bare (m : Model) (p : Plan) :
    (processModule m.bare p.unsigned).code.outline = (processModule m p).code.outline :=
  SourceModule.outline_code rfl rfl (outline_declarations_bare m) (procedures_bare m p)

theorem plain_latticeModule (m : Model) (p : Plan) : (latticeModule m p).code.Plain := by
  apply SourceModule.plain_code
  · change IsRemark "kMC lattice: index mapping and site access"
    decide
  · have hremark : IsRemark "site types" := by decide
    simp [latticeModule, LatticeModule.declarations, LatticeModule.parameters, hremark]

theorem toList_rateComment (q : Process) :
    (rateComment q).toList = (q.name ++ ": ").toList ++ q.flatRate := by
  change (q.name ++ ": " ++ String.ofList q.flatRate).toList = _
  rw [String.toList_append, String.toList_ofList]

theorem isRemark_rateComment {q : Process} (h : isIdentifier q.name = true) :
    IsRemark (rateComment q) := by
  obtain ⟨c, cs, hname, hletter, hcs⟩ := exists_of_isIdentifier h
  have htext : (rateComment q).toList = c :: (cs ++ (": ".toList ++ q.flatRate)) := by
    rw [toList_rateComment, String.toList_append, hname, List.append_assoc, List.cons_append]
  refine ⟨?_, ?_⟩
  · intro hempty
    rw [hempty] at htext
    exact absurd htext (by simp)
  · rw [htext]
    simp only [List.mem_cons, List.mem_append, not_or]
    refine ⟨?_, ?_, by decide, q.not_mem_flatRate⟩
    · rintro rfl
      exact absurd hletter (by decide)
    · intro hmem
      exact absurd (List.all_eq_true.1 hcs '\n' hmem) (by decide)

theorem comment_mem_processModule {m : Model} (p : Plan) {q : Process} (hq : q ∈ m.processes) :
    ⟨1, .comment (rateComment q)⟩ ∈ (processModule m p).code := by
  obtain ⟨i, hi⟩ := List.getElem?_of_mem hq
  have hnumbered : (i + 1, q) ∈ m.numberedProcesses :=
    List.mem_map.2 ⟨(q, i), List.mem_zipIdx_iff_getElem?.2 hi, rfl⟩
  have hdeclared : ⟨0, .comment (rateComment q)⟩ ∈ declarations m := by
    apply List.mem_append_right
    exact List.mem_flatMap.2 ⟨_, hnumbered, List.mem_cons_self⟩
  have hbody : ⟨0, .comment (rateComment q)⟩ ∈
      Code.statements (imports ++ ["implicit none"]) ++ Code.blank ++ declarations m ++
        Code.blank ++ Code.statement "contains" ++
          (procedures m p).flatMap fun p => Code.blank ++ p.code := by
    simp only [List.mem_append, hdeclared, or_true, true_or]
  apply List.mem_append_right
  apply List.mem_append_left
  apply List.mem_append_right
  exact List.mem_map.2 ⟨_, hbody, rfl⟩

theorem plain_processModule {m : Model} (h : m.Rules) (p : Plan) :
    (processModule m p).code.Plain := by
  apply SourceModule.plain_code
  · change IsRemark "kMC process list: availability updates and dispatch"
    decide
  · have hspecies : IsRemark "species" := by decide
    have hprocesses : IsRemark "processes and their rate constants" := by decide
    have hconstants : Code.Plain (m.numberedProcesses.flatMap processConstant) := by
      intro line hline
      obtain ⟨np, hnp, hline⟩ := List.mem_flatMap.1 hline
      have hremark := isRemark_rateComment
        (h.isIdentifier_process (Model.mem_processes_of_numbered hnp))
      have hplain : (processConstant np).Plain := by
        simp [processConstant, LatticeModule.parameters, hremark]
      exact hplain line hline
    simp [processModule, declarations, LatticeModule.parameters, hspecies, hprocesses, hconstants]

end Fortran

open Fortran

/-- The models agree in everything but rate constants, cell sizes and positions. -/
@[mk_iff]
structure Model.Alike (m m' : Model) : Prop where
  dimension : m.dimension = m'.dimension
  species : m.species = m'.species
  defaultSpecies : m.defaultSpecies = m'.defaultSpecies
  layers : (m.layers.map fun l => (l.name, l.siteNames)) =
    m'.layers.map fun l => (l.name, l.siteNames)
  conversions : m.conversions.entries = m'.conversions.entries
  processes : (m.processes.map fun q => (q.name, q.conditions, q.actions)) =
    m'.processes.map fun q => (q.name, q.conditions, q.actions)

instance (m m' : Model) : Decidable (m.Alike m') :=
  decidable_of_iff _ (Model.alike_iff m m').symm

/-- Behind the sign of a comment, a line has the rate constant of each process, without the blanks
at its end. -/
def Model.RatesInComments (m : Model) (text : String) : Prop :=
  ∀ q ∈ m.processes, ∃ before, isComment before = true ∧
    before ++ trimRight q.flatRate ∈ linesOf text

namespace Model

theorem Alike.bare_eq {m m' : Model} (h : m.Alike m') : m.bare = m'.bare := by
  have hlayers : m.layers.map Layer.bare = m'.layers.map Layer.bare := by
    have hmap := congrArg (List.map fun t : String × List String =>
      ({ name := t.1, sites := t.2.map fun name => { name } } : Layer)) h.layers
    rw [List.map_map, List.map_map] at hmap
    exact hmap
  have hprocesses : m.processes.map Process.bare = m'.processes.map Process.bare := by
    have hmap := congrArg (List.map fun t : String × List Placement × List Placement =>
      ({ name := t.1, rateConstant := "", conditions := t.2.1, actions := t.2.2 } : Process))
      h.processes
    rw [List.map_map, List.map_map] at hmap
    exact hmap
  have hconversions : m.conversions = m'.conversions :=
    congrArg ConversionTable.mk h.conversions
  unfold bare
  rw [h.dimension, h.species, h.defaultSpecies, hlayers, hprocesses, hconversions]

theorem Alike.processes_eq {m m' : Model} (h : m.Alike m')
    (hrates : m.processes.map (·.rateConstant) = m'.processes.map (·.rateConstant)) :
    m.processes = m'.processes := by
  have hpairs := congrArg₂ List.zip h.processes hrates
  rw [List.zip_map', List.zip_map'] at hpairs
  have := congrArg (List.map fun t : (String × List Placement × List Placement) × String =>
    ({ name := t.1.1, rateConstant := t.2, conditions := t.1.2.1, actions := t.1.2.2 } :
      Process)) hpairs
  simpa only [List.map_map, Function.comp_def, List.map_id'] using this

theorem Alike.fingerprint_eq {m m' : Model} (h : m.Alike m')
    (hrates : m.processes.map (·.rateConstant) = m'.processes.map (·.rateConstant)) :
    m.fingerprint = m'.fingerprint := by
  have hlayer (l : Layer) : Fingerprint.layer l =
      Fingerprint.text l.name ++ Fingerprint.word l.siteNames.length ++
        l.siteNames.flatMap Fingerprint.text := by
    simp [Fingerprint.layer, Layer.siteNames]
  have hlayers : m.layers.flatMap Fingerprint.layer = m'.layers.flatMap Fingerprint.layer := by
    have := congrArg (List.flatMap fun t : String × List String =>
      Fingerprint.text t.1 ++ Fingerprint.word t.2.length ++ t.2.flatMap Fingerprint.text) h.layers
    simpa only [List.flatMap_map, ← hlayer] using this
  unfold fingerprint fingerprintBytes
  rw [h.dimension, h.species, h.defaultSpecies, hlayers, h.conversions, h.processes_eq hrates]

theorem Alike.latticeModule_eq {m m' : Model} (h : m.Alike m') (p : Plan) :
    latticeModule m p = latticeModule m' p := by
  have hlayers : m.layers.length = m'.layers.length := by
    simpa using congrArg List.length h.layers
  unfold latticeModule LatticeModule.declarations
  rw [hlayers]

theorem Alike.processModule_eq {m m' : Model} (h : m.Alike m')
    (hrates : m.processes.map (·.rateConstant) = m'.processes.map (·.rateConstant)) (p : Plan) :
    processModule m p = processModule m' p := by
  have hprocesses := h.processes_eq hrates
  have hprocedures : ProcessModule.procedures m p = ProcessModule.procedures m' p := by
    rw [← procedures_bare, h.bare_eq, procedures_bare]
  have hdeclarations : ProcessModule.declarations m = ProcessModule.declarations m' := by
    unfold ProcessModule.declarations numberedProcesses
    rw [hprocesses, h.species, h.defaultSpecies]
  unfold processModule
  rw [hprocedures, hdeclarations]

theorem Alike.agree_lattice {m m' : Model} (h : m.Alike m') {p p' : Plan}
    (hplan : p.unsigned = p'.unsigned) (width : Nat) :
    AgreeInCode ((latticeModule m p).render width) ((latticeModule m' p').render width) := by
  unfold SourceModule.render
  refine Code.agreeInCode_render (plain_latticeModule m p) (plain_latticeModule m' p') ?_ width
  rw [← outline_latticeModule_bare m p, ← outline_latticeModule_bare m' p', hplan, h.bare_eq]

theorem Alike.agree_proclist {m m' : Model} (h : m.Alike m') (hm : m.Rules) (hm' : m'.Rules)
    {p p' : Plan} (hplan : p.unsigned = p'.unsigned) (width : Nat) :
    AgreeInCode ((processModule m p).render width) ((processModule m' p').render width) := by
  unfold SourceModule.render
  refine Code.agreeInCode_render (plain_processModule hm p) (plain_processModule hm' p') ?_ width
  rw [← outline_processModule_bare m p, ← outline_processModule_bare m' p', hplan, h.bare_eq]

theorem ratesInComments {m : Model} (h : m.Rules) (p : Plan) (width : Nat) :
    m.RatesInComments ((processModule m p).render width) := by
  intro q hq
  have hremark := isRemark_rateComment (h.isIdentifier_process hq)
  have hline := Code.commentLine_mem_linesOf (comment_mem_processModule p hq) hremark width
  have hne : (ProcessModule.rateComment q).toList ≠ [] := by simpa using hremark.1
  obtain ⟨before, hbefore⟩ := exists_trimRight_append (q.name ++ ": ").toList q.flatRate
  refine ⟨spaces (width * 1) ++ '!' :: ' ' :: before, isComment_append _ _, ?_⟩
  rw [commentLine, if_neg (by simpa using hne), toList_rateComment, hbefore] at hline
  simpa [SourceModule.render] using hline

theorem identifiers_bare (m : Model) (p : Plan) :
    p.unsigned.identifiers m.bare = p.identifiers m := by
  unfold Plan.identifiers
  rw [processes_bare, List.map_map]
  rfl

theorem fingerprint_of_compile {m : Model} {p : Plan} (h : m.compile = .ok p) :
    p.fingerprint = m.fingerprint := by
  unfold compile at h
  simp only [bind_eq_ok_iff, pure_eq_ok_iff] at h
  obtain ⟨_, -, _, -, _, -, _, -, _, -, h⟩ := h
  rw [← h]

theorem generate_own {m : Model} {p : Plan} (h : m.compile = .ok p) (s : Settings) :
    m.generate p s = (do
      s.validate.mapError .settings
      checkIdentifiers (p.identifiers m)
      pure ⟨(latticeModule m p).render s.indent, (processModule m p).render s.indent⟩) := by
  unfold generate
  rw [if_neg (by simp [fingerprint_of_compile h])]

end Model

/-- Two models that were built and are alike compile to plans that differ in the fingerprint only,
or fail to compile in the same way. Their texts cannot be generated for the same reason, or they
have as many lines and agree in all that are no comments, and each rate constant, without the blanks
at its end, is inside of one comment. With the same rate constants the texts are the same. -/
theorem opaque_fields_reach_comments_only {d d' : Draft} {m m' : Model} (hd : d.build = .ok m)
    (hd' : d'.build = .ok m') (h : m.Alike m') (s : Settings) :
    m.compile.map Plan.unsigned = m'.compile.map Plan.unsigned ∧
    ∀ p p', m.compile = .ok p → m'.compile = .ok p' →
      (∃ e, m.generate p s = .error e ∧ m'.generate p' s = .error e) ∨
      ∃ t t', m.generate p s = .ok t ∧ m'.generate p' s = .ok t' ∧
        AgreeInCode t.lattice t'.lattice ∧ AgreeInCode t.proclist t'.proclist ∧
        m.RatesInComments t.proclist ∧ m'.RatesInComments t'.proclist ∧
        (m.processes.map (·.rateConstant) = m'.processes.map (·.rateConstant) → t = t') := by
  obtain ⟨hrules, -⟩ := Draft.build_eq_ok hd
  obtain ⟨hrules', -⟩ := Draft.build_eq_ok hd'
  -- Both sides are compared with the one model without opaque fields.
  have hcompile : m.compile.map Plan.unsigned = m'.compile.map Plan.unsigned := by
    rw [← Model.compile_bare m, h.bare_eq, Model.compile_bare]
  refine ⟨hcompile, ?_⟩
  intro p p' hp hp'
  have hplan : p.unsigned = p'.unsigned := by
    rw [hp, hp'] at hcompile
    exact Except.ok.inj hcompile
  have hidentifiers : p.identifiers m = p'.identifiers m' := by
    rw [← Model.identifiers_bare m p, ← Model.identifiers_bare m' p', hplan, h.bare_eq]
  rw [Model.generate_own hp, Model.generate_own hp', ← hidentifiers]
  cases s.validate with
  | error e => exact .inl ⟨_, rfl, rfl⟩
  | ok _ =>
    cases hchecked : checkIdentifiers (p.identifiers m) with
    | error e => exact .inl ⟨_, rfl, rfl⟩
    | ok _ =>
      refine .inr ⟨_, _, rfl, rfl, ?_⟩
      -- Without this step the texts themselves are unfolded.
      dsimp only
      refine ⟨h.agree_lattice hplan s.indent, h.agree_proclist hrules hrules' hplan s.indent,
        m.ratesInComments hrules p s.indent, m'.ratesInComments hrules' p' s.indent, ?_⟩
      intro hrates
      have hsame : p = p' := by
        apply Plan.eq_of_unsigned hplan
        rw [Model.fingerprint_of_compile hp, Model.fingerprint_of_compile hp',
          h.fingerprint_eq hrates]
      rw [← hsame, h.latticeModule_eq, h.processModule_eq hrates]

def Draft.restyled (d : Draft) (rate : String) (size : Triple Float) : Draft :=
  { d with
    layers := d.layers.map fun l => { l with cellSize := size }
    processes := d.processes.map fun q => { q with rateConstant := rate } }

/-- A rate constant that looks like code of its own. -/
theorem code_in_rate_constants_stays_in_comments :
    ∃ m m' p p' t t', Samples.adsorptionChain.build = .ok m ∧
      (Samples.adsorptionChain.restyled "k\nend module \"'\n!" ⟨2, 3, 5⟩).build = .ok m' ∧
      m.compile = .ok p ∧ m'.compile = .ok p' ∧ p.fingerprint ≠ p'.fingerprint ∧
      m.generate p {} = .ok t ∧ m'.generate p' {} = .ok t' ∧ AgreeInCode t.proclist t'.proclist ∧
      m'.RatesInComments t'.proclist := by
  have h : (do
      let m ← Samples.adsorptionChain.build.toOption
      let m' ← (Samples.adsorptionChain.restyled "k\nend module \"'\n!" ⟨2, 3, 5⟩).build.toOption
      let p ← m.compile.toOption
      let p' ← m'.compile.toOption
      guard (m.Alike m' ∧ p.fingerprint ≠ p'.fingerprint ∧
        (m.generate p {}).toOption.isSome)) = some () := by
    decide +kernel
  simp only [Option.bind_eq_bind, Option.bind_eq_some_iff, toOption_eq_some_iff,
    Option.guard_eq_some'] at h
  obtain ⟨m, hm, m', hm', p, hp, p', hp', halike, hfingerprint, hsome⟩ := h
  obtain ⟨-, hsources⟩ := opaque_fields_reach_comments_only hm hm' halike {}
  obtain ⟨e, herror, -⟩ | ⟨t, t', ht, ht', -, hagree, -, hrates, -⟩ := hsources p p' hp hp'
  · simp [herror, Except.toOption] at hsome
  · exact ⟨m, m', p, p', t, t', hm, hm', hp, hp', hfingerprint, ht, ht', hagree, hrates⟩

/-- A tab is one byte, so no text need be decoded to see that it has none. -/
theorem mem_bytes_of_mem_toList {text : String} (h : '\t' ∈ text.toList) :
    9 ∈ text.toByteArray.data.toList := by
  rw [← String.utf8Encode_toList, List.utf8Encode, List.data_toByteArray, List.mem_flatMap]
  exact ⟨_, h, by decide⟩

/-- A tab at the end of a rate constant is lost. -/
theorem tab_behind_rate_constant_is_dropped :
    ∃ m p t, (Samples.adsorptionChain.restyled "k\t" ⟨1, 1, 1⟩).build = .ok m ∧
      m.compile = .ok p ∧ m.generate p {} = .ok t ∧
      ∃ q ∈ m.processes, ∀ line ∈ linesOf t.proclist, isComment line = true →
        ¬q.flatRate <:+: line := by
  have h : (do
      let m ← (Samples.adsorptionChain.restyled "k\t" ⟨1, 1, 1⟩).build.toOption
      let p ← m.compile.toOption
      guard ((checkIdentifiers (p.identifiers m)).toOption = some () ∧
        (∃ q ∈ m.processes, q.flatRate = ['k', '\t']) ∧
        ∀ l ∈ (processModule m p).code,
          l.content = .comment "adsA: k\t" ∨ l.content = .comment "desA: k\t" ∨
          9 ∉ l.content.text.toByteArray.data.toList)) = some () := by
    decide +kernel
  simp only [Option.bind_eq_bind, Option.bind_eq_some_iff, toOption_eq_some_iff,
    Option.guard_eq_some'] at h
  obtain ⟨m, hm, p, hp, hchecked, ⟨q, hq, hrate⟩, hcode⟩ := h
  have hgenerate := Model.generate_own hp {}
  rw [hchecked] at hgenerate
  refine ⟨m, p, _, hm, hp, hgenerate, q, hq, ?_⟩
  dsimp only
  unfold SourceModule.render
  intro line hline _ hinfix
  have htab : '\t' ∈ line := by
    apply hinfix.subset
    simp [hrate]
  have hrules := (Draft.build_eq_ok hm).1
  obtain htab | ⟨l, hl, htab⟩ :=
    Code.mem_of_mem_linesOf (plain_processModule hrules p) hline htab
  · exact absurd htab (by decide)
  · have htext : '\t' ∈ l.content.text.toList := trimRight_subset _ htab
    obtain hl | hl | hl := hcode l hl
    · rw [Line.characters, hl] at htab
      exact absurd htab (by decide)
    · rw [Line.characters, hl] at htab
      exact absurd htab (by decide)
    · exact hl (mem_bytes_of_mem_toList htext)

end LatticeKinetics
