import LatticeKinetics.Proofs.DeliverySteps

/-! Whether a delivery that succeeds leaves both texts where it says they are. The staging and
backup files lie beside the targets, so a target can have the name of the other's staging or backup
file. Trees have no links here; through a link from one target to the other's staging file a text
could be lost although no two names are equal. -/

namespace LatticeKinetics

open FileTree

theorem isName_append (name : String) {suffix : String} (h : 2 < suffix.length) :
    IsName (name ++ suffix) := by
  have hlength : (name ++ suffix).length = name.length + suffix.length :=
    String.length_append name suffix
  have hlong : ∀ short : String, short.length ≤ 2 → name ++ suffix ≠ short := by
    rintro short hshort heq
    rw [heq] at hlength
    omega
  refine ⟨?_, hlong ".." (by decide), hlong "/" (by decide)⟩
  unfold Pathname.isIdle
  rw [Bool.or_eq_false_iff, beq_eq_false_iff_ne, beq_eq_false_iff_ne]
  exact ⟨hlong "" (by decide), hlong "." (by decide)⟩

theorem isName_partial (name : String) : IsName (name ++ ".partial") :=
  isName_append name (by decide)

theorem isName_backup (name : String) : IsName (name ++ ".backup") :=
  isName_append name (by decide)

theorem ne_append {name suffix : String} (h : 0 < suffix.length) : name ≠ name ++ suffix := by
  intro heq
  have hlength := congrArg String.length heq
  rw [String.length_append] at hlength
  omega

theorem partial_ne_backup (name other : String) : name ++ ".partial" ≠ other ++ ".backup" := by
  intro heq
  have hlast := congrArg (·.toList.getLast?) heq
  simp at hlast

namespace Settings

variable {s : Settings} {name : String}

theorem isName_of_isPlainName (h : isPlainName name = true) : IsName name := by
  unfold isPlainName at h
  simp only [Bool.and_eq_true, bne_iff_ne, Bool.not_eq_true'] at h
  obtain ⟨⟨⟨hempty, hdot⟩, hdots⟩, hslash⟩ := h
  refine ⟨by simp [Pathname.isIdle, hempty, hdot], hdots, ?_⟩
  rintro rfl
  simp at hslash

theorem validate_eq_ok {u : Unit} (h : s.validate = .ok u) :
    IsName s.latticeFile ∧ IsName s.proclistFile ∧ s.latticeFile ≠ s.proclistFile := by
  unfold validate at h
  simp only [ite_error_eq_ok_iff, Bool.not_eq_true', Bool.not_eq_false] at h
  obtain ⟨hlattice, hproclist, hne, -⟩ := h
  exact ⟨isName_of_isPlainName hlattice, isName_of_isPlainName hproclist, hne⟩

def directory (s : Settings) : List String :=
  if s.outputDir.segments.getLast? = some "" then s.outputDir.segments.dropLast
  else s.outputDir.segments

theorem segments_join (s : Settings) (name : String) :
    (s.outputDir.join name).segments = s.directory ++ [name] := by
  unfold Pathname.join directory
  split <;> rfl

theorem isIn_join (h : IsName name) : (s.outputDir.join name).IsIn s.directory name :=
  ⟨h, .inl (s.segments_join name)⟩

theorem segments_sibling (s : Settings) (name other : String) :
    ((s.outputDir.join name).sibling other).segments =
      Pathname.trimmed s.directory ++ [other] := by
  unfold Pathname.sibling
  rw [segments_join, List.dropLast_concat]

theorem name_join (s : Settings) (name : String) : (s.outputDir.join name).name = name := by
  unfold Pathname.name
  rw [segments_join]
  simp

theorem isIn_staging (s : Settings) (name : String) :
    (s.outputDir.join name).staging.IsIn s.directory (name ++ ".partial") := by
  refine ⟨isName_partial name, .inr ?_⟩
  unfold Pathname.staging
  rw [name_join]
  exact s.segments_sibling name _

theorem isIn_backup (s : Settings) (name : String) :
    (s.outputDir.join name).backup.IsIn s.directory (name ++ ".backup") := by
  refine ⟨isName_backup name, .inr ?_⟩
  unfold Pathname.backup
  rw [name_join]
  exact s.segments_sibling name _

theorem visited_outputDir_subset (s : Settings) :
    visited (origin s.outputDir) s.outputDir.segments ⊆
      visited (start s.directory) s.directory := by
  unfold directory
  split
  · rename_i hlast
    obtain ⟨segments, hsegments⟩ := List.getLast?_eq_some_iff.1 hlast
    have hdir : s.outputDir = ⟨segments ++ [""]⟩ := by
      rw [← hsegments]
    rw [hsegments, List.dropLast_concat, hdir, origin_append]
    intro q hq
    rcases mem_visited_append.1 hq with hq | hq
    · exact hq
    · rw [eq_of_mem_visited_idle (by simp [Pathname.isIdle]) hq]
      exact foldl_follow_mem_visited ..
  · rename_i hlast
    have hstart : origin s.outputDir = start s.outputDir.segments := by
      unfold origin Pathname.isAbsolute start
      generalize s.outputDir.segments = segments at hlast ⊢
      match segments, hlast with
      | [], _ => rfl
      | [first], hlast =>
        have hfirst : first ≠ "" := by simpa using hlast
        simp [hfirst]
      | first :: second :: rest, _ => simp
    rw [hstart]
    exact List.Subset.refl _

end Settings

namespace Delivery

inductive Cleared (p : Pathname) (t : FileTree) : Bool → FileTree → Prop
  | absent (h : ¬∃ x, t.find p = .ok x) : Cleared p t false t
  | saved {t' : FileTree} (h : t.rename p p.backup = .ok t') : Cleared p t true t'

namespace Cleared

variable {s : Settings} {name : String} {t t' : FileTree} {saved : Bool}

theorem opens (h : Cleared (s.outputDir.join name) t saved t') (hname : IsName name)
    (hopens : t'.Opens s.directory) : t.Opens s.directory := by
  cases h with
  | absent h => exact hopens
  | saved h =>
    exact (rename_eq_ok (Settings.isIn_join hname) (s.isIn_backup name)
      (ne_append (by decide)).symm h).2.1

theorem slot_eq_none (h : Cleared (s.outputDir.join name) t saved t') (hname : IsName name)
    (husable : (s.outputDir.join name).Usable) (hopens : t'.Opens s.directory) :
    t'.slot s.directory name = none := by
  cases h with
  | absent h =>
    rw [Option.eq_none_iff_forall_ne_some]
    intro entry hentry
    exact h ⟨_, (find_eq_ok_iff (Settings.isIn_join hname)).2 ⟨husable, hopens, rfl, hentry⟩⟩
  | saved h =>
    have hne : name ++ ".backup" ≠ name := (ne_append (by decide)).symm
    obtain ⟨-, -, rfl, -⟩ := rename_eq_ok (Settings.isIn_join hname) (s.isIn_backup name) hne h
    rw [slot_move hname (isName_backup name) hne, if_neg hne.symm, if_pos rfl]

theorem slot_of_ne (h : Cleared (s.outputDir.join name) t saved t') (hname : IsName name)
    {other : String} (hother : other ≠ name) (hbackup : other ≠ name ++ ".backup") :
    t'.slot s.directory other = t.slot s.directory other := by
  cases h with
  | absent h => rfl
  | saved h =>
    have hne : name ++ ".backup" ≠ name := (ne_append (by decide)).symm
    obtain ⟨-, -, rfl, -⟩ := rename_eq_ok (Settings.isIn_join hname) (s.isIn_backup name) hne h
    rw [slot_move hname (isName_backup name) hne, if_neg hbackup, if_neg hother]

theorem saved_iff (h : Cleared (s.outputDir.join name) t saved t') (hname : IsName name)
    (husable : (s.outputDir.join name).Usable) (hopens : t.Opens s.directory) :
    saved = true ↔ t.slot s.directory name ≠ none := by
  cases h with
  | absent h =>
    have hnone := (Cleared.absent h).slot_eq_none hname husable hopens
    simp [hnone]
  | saved h =>
    obtain ⟨-, -, -, entry, hentry, -⟩ := rename_eq_ok (Settings.isIn_join hname)
      (s.isIn_backup name) (ne_append (by decide)).symm h
    simp [hentry]

theorem usable_backup (h : Cleared (s.outputDir.join name) t true t') (hname : IsName name) :
    (s.outputDir.join name).backup.Usable := by
  cases h with
  | saved h =>
    exact (rename_eq_ok (Settings.isIn_join hname) (s.isIn_backup name)
      (ne_append (by decide)).symm h).1.2

end Cleared

def backups (s : Settings) (latticeSaved proclistSaved : Bool) : List Pathname :=
  (if latticeSaved then [s.latticePath.backup] else []) ++
    if proclistSaved then [s.proclistPath.backup] else []

/-- The trees that a delivery goes through when it succeeds. -/
structure Trace (s : Settings) (sources : Sources) (t t' : FileTree) where
  made : FileTree
  stagedOne : FileTree
  staged : FileTree
  clearedOne : FileTree
  cleared : FileTree
  installedOne : FileTree
  installed : FileTree
  latticeSaved : Bool
  proclistSaved : Bool
  grown : Grown (visited (start s.directory) s.directory) t made
  stageLattice : made.write s.latticePath.staging sources.lattice = .ok stagedOne
  stageProclist : stagedOne.write s.proclistPath.staging sources.proclist = .ok staged
  clearLattice : Cleared s.latticePath staged latticeSaved clearedOne
  clearProclist : Cleared s.proclistPath clearedOne proclistSaved cleared
  installLattice : cleared.rename s.latticePath.staging s.latticePath = .ok installedOne
  installProclist : installedOne.rename s.proclistPath.staging s.proclistPath = .ok installed
  tidied : t' = (backups s latticeSaved proclistSaved).foldl without installed

theorem setAside_cons_cleared {session session' : Session} {paths saved ps saved' : List Pathname}
    {p : Pathname}
    (h : setAside Session.disk paths saved (p :: ps) session = (.ok saved', session')) :
    ∃ moved after, Cleared p session.tree moved after.tree ∧
      setAside Session.disk paths (saved ++ if moved then [p] else []) ps after =
        (.ok saved', session') := by
  rcases setAside_cons_eq_ok h with ⟨habsent, hrest⟩ | ⟨tree, hrename, hrest⟩
  · exact ⟨false, session, .absent habsent, by simpa using hrest⟩
  · exact ⟨true, { session with tree }, .saved hrename, hrest⟩

theorem exists_trace {s : Settings} {sources : Sources} {session session' : Session}
    {paths : List Pathname}
    (h : sources.deliver Session.disk s session = (.ok paths, session')) :
    s.validate = .ok () ∧ Nonempty (Trace s sources session.tree session'.tree) := by
  obtain ⟨hvalid, checked, made, staged, hchecked, rfl, hstage, hreplace⟩ :=
    Sources.deliver_eq_ok h
  have hgrown := (Disk.makeDirectories_grown s.outputDir checked).mono s.visited_outputDir_subset
  rw [hchecked] at hgrown
  obtain ⟨one, hone, hstage⟩ := stage_cons_eq_ok hstage
  obtain ⟨two, htwo, hstage⟩ := stage_cons_eq_ok hstage
  obtain rfl := (Prod.mk.inj hstage).2
  obtain ⟨saved, cleared, installed, hset, hinstall, htidied⟩ := replace_eq_ok hreplace
  obtain ⟨latticeSaved, clearedOne, hlattice, hset⟩ := setAside_cons_cleared hset
  obtain ⟨proclistSaved, clearedTwo, hproclist, hset⟩ := setAside_cons_cleared hset
  obtain ⟨hsaved, rfl⟩ := Prod.mk.inj hset
  obtain ⟨three, hthree, hinstall⟩ := install_cons_eq_ok hinstall
  obtain ⟨four, hfour, hinstall⟩ := install_cons_eq_ok hinstall
  obtain rfl := (Prod.mk.inj hinstall).2
  refine ⟨hvalid, ⟨{
    made := _, stagedOne := one, staged := two, clearedOne := _, cleared := _
    installedOne := three, installed := four, latticeSaved, proclistSaved
    grown := hgrown, stageLattice := hone, stageProclist := htwo, clearLattice := hlattice
    clearProclist := hproclist, installLattice := hthree, installProclist := hfour
    tidied := ?_ }⟩⟩
  rw [htidied, ← Except.ok.inj hsaved]
  cases latticeSaved <;> cases proclistSaved <;> rfl

namespace Trace

variable {s : Settings} {sources : Sources} {t t' : FileTree}

theorem installLattice_eq (tr : Trace s sources t t') (hvalid : s.validate = .ok ()) :
    s.latticePath.Usable ∧ tr.cleared.Opens s.directory ∧
      (∃ entry, tr.cleared.slot s.directory (s.latticeFile ++ ".partial") = some entry) ∧
      tr.installedOne = tr.cleared.move (home s.directory ++ [s.latticeFile ++ ".partial"])
        (home s.directory ++ [s.latticeFile]) := by
  obtain ⟨hlattice, -, -⟩ := Settings.validate_eq_ok hvalid
  obtain ⟨⟨-, husable⟩, hopens, hmove, entry, hentry, -⟩ :=
    rename_eq_ok (s.isIn_staging s.latticeFile) (Settings.isIn_join hlattice)
      (ne_append (by decide)) tr.installLattice
  exact ⟨husable, hopens, ⟨entry, hentry⟩, hmove⟩

theorem installProclist_eq (tr : Trace s sources t t') (hvalid : s.validate = .ok ()) :
    s.proclistPath.Usable ∧ tr.installedOne.Opens s.directory ∧
      (∃ entry, tr.installedOne.slot s.directory (s.proclistFile ++ ".partial") = some entry ∧
        ((∃ text, entry = .file text) →
          tr.installedOne.slot s.directory s.proclistFile ≠ some .directory)) ∧
      tr.installed = tr.installedOne.move (home s.directory ++ [s.proclistFile ++ ".partial"])
        (home s.directory ++ [s.proclistFile]) := by
  obtain ⟨-, hproclist, -⟩ := Settings.validate_eq_ok hvalid
  obtain ⟨⟨-, husable⟩, hopens, hmove, hentry⟩ :=
    rename_eq_ok (s.isIn_staging s.proclistFile) (Settings.isIn_join hproclist)
      (ne_append (by decide)) tr.installProclist
  exact ⟨husable, hopens, hentry, hmove⟩

theorem opens_clearedOne (tr : Trace s sources t t') (hvalid : s.validate = .ok ()) :
    tr.clearedOne.Opens s.directory :=
  tr.clearProclist.opens (Settings.validate_eq_ok hvalid).2.1 (tr.installLattice_eq hvalid).2.1

theorem opens_staged (tr : Trace s sources t t') (hvalid : s.validate = .ok ()) :
    tr.staged.Opens s.directory :=
  tr.clearLattice.opens (Settings.validate_eq_ok hvalid).1 (tr.opens_clearedOne hvalid)

theorem slot_staged (tr : Trace s sources t t') (name : String) :
    tr.staged.slot s.directory name =
      if name = s.proclistFile ++ ".partial" then some (.file sources.proclist)
      else if name = s.latticeFile ++ ".partial" then some (.file sources.lattice)
      else tr.made.slot s.directory name := by
  obtain ⟨-, -, hone⟩ := write_eq_ok (s.isIn_staging s.latticeFile) tr.stageLattice
  obtain ⟨-, -, htwo⟩ := write_eq_ok (s.isIn_staging s.proclistFile) tr.stageProclist
  rw [htwo, slot_insert (isName_partial _), hone, slot_insert (isName_partial _)]

/-- Once a target is cleared its place is none of the directories on the way, so it was not one of
those that were made. -/
theorem slot_made {name : String} (tr : Trace s sources t t') {cleared : FileTree}
    (hopens : cleared.Opens s.directory) (hnone : cleared.slot s.directory name = none) :
    tr.made.slot s.directory name = t.slot s.directory name := by
  rcases tr.grown (home s.directory ++ [name]) with hsame | ⟨-, -, hvisited⟩
  · exact hsame
  · have hdirectory := hopens.directories _ hvisited
    unfold slot at hnone
    rw [hnone] at hdirectory
    contradiction

theorem slot_cleared_proclist (tr : Trace s sources t t') (hvalid : s.validate = .ok ()) :
    tr.cleared.slot s.directory s.proclistFile = none :=
  tr.clearProclist.slot_eq_none (Settings.validate_eq_ok hvalid).2.1
    (tr.installProclist_eq hvalid).1 (tr.installLattice_eq hvalid).2.1

theorem slot_clearedOne_lattice (tr : Trace s sources t t') (hvalid : s.validate = .ok ()) :
    tr.clearedOne.slot s.directory s.latticeFile = none :=
  tr.clearLattice.slot_eq_none (Settings.validate_eq_ok hvalid).1
    (tr.installLattice_eq hvalid).1 (tr.opens_clearedOne hvalid)

/-- The second target cannot be the staging file of the first: clearing it would have taken the
staged text away. -/
theorem proclist_ne_staging (tr : Trace s sources t t') (hvalid : s.validate = .ok ()) :
    s.proclistFile ≠ s.latticeFile ++ ".partial" := by
  intro heq
  obtain ⟨entry, hentry⟩ := (tr.installLattice_eq hvalid).2.2.1
  rw [← heq, tr.slot_cleared_proclist hvalid] at hentry
  contradiction

theorem slot_cleared_partial (tr : Trace s sources t t') (hvalid : s.validate = .ok ())
    {name : String} (hlattice : name ++ ".partial" ≠ s.latticeFile)
    (hproclist : name ++ ".partial" ≠ s.proclistFile) :
    tr.cleared.slot s.directory (name ++ ".partial") =
      tr.staged.slot s.directory (name ++ ".partial") := by
  obtain ⟨hl, hp, -⟩ := Settings.validate_eq_ok hvalid
  rw [tr.clearProclist.slot_of_ne hp hproclist (partial_ne_backup _ _),
    tr.clearLattice.slot_of_ne hl hlattice (partial_ne_backup _ _)]

theorem slot_installedOne (tr : Trace s sources t t') (hvalid : s.validate = .ok ())
    (name : String) :
    tr.installedOne.slot s.directory name =
      if name = s.latticeFile then some (.file sources.lattice)
      else if name = s.latticeFile ++ ".partial" then none
      else tr.cleared.slot s.directory name := by
  obtain ⟨hl, -, hne⟩ := Settings.validate_eq_ok hvalid
  have htext : tr.cleared.slot s.directory (s.latticeFile ++ ".partial") =
      some (.file sources.lattice) := by
    have hother : s.latticeFile ++ ".partial" ≠ s.proclistFile ++ ".partial" :=
      fun heq => hne ((String.append_left_inj _).1 heq)
    rw [tr.slot_cleared_partial hvalid (ne_append (by decide)).symm
      (tr.proclist_ne_staging hvalid).symm, tr.slot_staged, if_neg hother, if_pos rfl]
  rw [(tr.installLattice_eq hvalid).2.2.2,
    slot_move (isName_partial _) hl (ne_append (by decide)), htext]

theorem slot_installed_of_staging (tr : Trace s sources t t') (hvalid : s.validate = .ok ())
    (hclash : s.latticeFile = s.proclistFile ++ ".partial") :
    tr.installed.slot s.directory s.latticeFile = none := by
  obtain ⟨-, hp, hne⟩ := Settings.validate_eq_ok hvalid
  -- Installing the second target moves its staging file away, which is the first target.
  rw [(tr.installProclist_eq hvalid).2.2.2,
    slot_move (isName_partial _) hp (ne_append (by decide)), if_neg hne, if_pos hclash]

theorem slot_installed (tr : Trace s sources t t') (hvalid : s.validate = .ok ())
    (hapart : s.latticeFile ≠ s.proclistFile ++ ".partial") :
    tr.installed.Opens s.directory ∧
      tr.installed.slot s.directory s.latticeFile = some (.file sources.lattice) ∧
      tr.installed.slot s.directory s.proclistFile = some (.file sources.proclist) := by
  obtain ⟨-, hp, hne⟩ := Settings.validate_eq_ok hvalid
  obtain ⟨-, hopens, ⟨entry, hentry, hfree⟩, hmove⟩ := tr.installProclist_eq hvalid
  have htext : tr.installedOne.slot s.directory (s.proclistFile ++ ".partial") =
      some (.file sources.proclist) := by
    have hother : s.proclistFile ++ ".partial" ≠ s.latticeFile ++ ".partial" :=
      fun heq => hne ((String.append_left_inj _).1 heq).symm
    rw [tr.slot_installedOne hvalid, if_neg hapart.symm, if_neg hother,
      tr.slot_cleared_partial hvalid hapart.symm (ne_append (by decide)).symm, tr.slot_staged,
      if_pos rfl]
  obtain rfl : Entry.file sources.proclist = entry := Option.some.inj (htext.symm.trans hentry)
  rw [hmove]
  refine ⟨?_, ?_, ?_⟩
  · exact hopens.move (isName_partial _) hp (by simp [htext]) (hfree ⟨_, rfl⟩)
  · rw [slot_move (isName_partial _) hp (ne_append (by decide)), if_neg hne, if_neg hapart,
      tr.slot_installedOne hvalid, if_pos rfl]
  · rw [slot_move (isName_partial _) hp (ne_append (by decide)), if_pos rfl, htext]

theorem latticeSaved_iff (tr : Trace s sources t t') (hvalid : s.validate = .ok ())
    (hapart : s.latticeFile ≠ s.proclistFile ++ ".partial") :
    tr.latticeSaved = true ↔ t.slot s.directory s.latticeFile ≠ none := by
  obtain ⟨hl, -, -⟩ := Settings.validate_eq_ok hvalid
  rw [tr.clearLattice.saved_iff hl (tr.installLattice_eq hvalid).1 (tr.opens_staged hvalid),
    tr.slot_staged, if_neg hapart, if_neg (ne_append (by decide)),
    tr.slot_made (tr.opens_clearedOne hvalid) (tr.slot_clearedOne_lattice hvalid)]

theorem proclistSaved_iff (tr : Trace s sources t t') (hvalid : s.validate = .ok ())
    (hapart : s.proclistFile ≠ s.latticeFile ++ ".backup") :
    tr.proclistSaved = true ↔ t.slot s.directory s.proclistFile ≠ none := by
  obtain ⟨hl, hp, hne⟩ := Settings.validate_eq_ok hvalid
  rw [tr.clearProclist.saved_iff hp (tr.installProclist_eq hvalid).1 (tr.opens_clearedOne hvalid),
    tr.clearLattice.slot_of_ne hl hne.symm hapart, tr.slot_staged,
    if_neg (ne_append (by decide)), if_neg (tr.proclist_ne_staging hvalid),
    tr.slot_made (tr.installLattice_eq hvalid).2.1 (tr.slot_cleared_proclist hvalid)]

theorem mem_backups (tr : Trace s sources t t') {p : Pathname} :
    p ∈ backups s tr.latticeSaved tr.proclistSaved ↔
      tr.latticeSaved = true ∧ p = s.latticePath.backup ∨
        tr.proclistSaved = true ∧ p = s.proclistPath.backup := by
  unfold backups
  cases tr.latticeSaved <;> cases tr.proclistSaved <;> simp

theorem isIn_of_mem_backups (tr : Trace s sources t t') :
    ∀ p ∈ backups s tr.latticeSaved tr.proclistSaved, ∃ name, p.IsIn s.directory name := by
  intro p hmem
  rcases tr.mem_backups.1 hmem with ⟨-, rfl⟩ | ⟨-, rfl⟩
  · exact ⟨_, s.isIn_backup s.latticeFile⟩
  · exact ⟨_, s.isIn_backup s.proclistFile⟩

theorem usable_of_mem_backups (tr : Trace s sources t t') (hvalid : s.validate = .ok ()) :
    ∀ p ∈ backups s tr.latticeSaved tr.proclistSaved, p.Usable := by
  obtain ⟨hl, hp, -⟩ := Settings.validate_eq_ok hvalid
  intro p hmem
  rcases tr.mem_backups.1 hmem with ⟨hsaved, rfl⟩ | ⟨hsaved, rfl⟩
  · exact (hsaved ▸ tr.clearLattice).usable_backup hl
  · exact (hsaved ▸ tr.clearProclist).usable_backup hp

theorem slot_tidied_iff (tr : Trace s sources t t') (hvalid : s.validate = .ok ())
    (hopens : tr.installed.Opens s.directory) {name text : String}
    (hfile : tr.installed.slot s.directory name = some (.file text)) :
    t'.slot s.directory name = some (.file text) ↔
      ¬(tr.latticeSaved = true ∧ name = s.latticeFile ++ ".backup") ∧
        ¬(tr.proclistSaved = true ∧ name = s.proclistFile ++ ".backup") := by
  have hkept := slot_foldl_without_iff tr.isIn_of_mem_backups (tr.usable_of_mem_backups hvalid)
    hopens hfile
  rw [← tr.tidied] at hkept
  rw [hkept]
  have hlattice : s.latticePath.backup.name = s.latticeFile ++ ".backup" :=
    (s.isIn_backup s.latticeFile).name_eq
  have hproclist : s.proclistPath.backup.name = s.proclistFile ++ ".backup" :=
    (s.isIn_backup s.proclistFile).name_eq
  constructor
  · intro h
    constructor
    · rintro ⟨hsaved, rfl⟩
      exact h _ (tr.mem_backups.2 (.inl ⟨hsaved, rfl⟩)) hlattice
    · rintro ⟨hsaved, rfl⟩
      exact h _ (tr.mem_backups.2 (.inr ⟨hsaved, rfl⟩)) hproclist
  · rintro ⟨hl, hp⟩ p hmem rfl
    rcases tr.mem_backups.1 hmem with ⟨hsaved, rfl⟩ | ⟨hsaved, rfl⟩
    · exact hl ⟨hsaved, hlattice⟩
    · exact hp ⟨hsaved, hproclist⟩

end Trace

end Delivery

/-- One target is the staging or the backup file of the other. A backup is only made of a file that
is there. -/
def Settings.Collides (s : Settings) (t : FileTree) : Prop :=
  s.latticeFile = s.proclistFile ++ ".partial" ∨
    s.latticeFile = s.proclistFile ++ ".backup" ∧ t.slot s.directory s.proclistFile ≠ none ∨
      s.proclistFile = s.latticeFile ++ ".backup" ∧ t.slot s.directory s.latticeFile ≠ none

namespace Delivery.Trace

variable {s : Settings} {sources : Sources} {t t' : FileTree}

theorem opens_tidied (tr : Trace s sources t t') (hvalid : s.validate = .ok ())
    (hapart : s.latticeFile ≠ s.proclistFile ++ ".partial") : t'.Opens s.directory := by
  rw [tr.tidied]
  exact (tr.slot_installed hvalid hapart).1.foldl_without tr.isIn_of_mem_backups

theorem slots_tidied_iff (tr : Trace s sources t t') (hvalid : s.validate = .ok ()) :
    (t'.slot s.directory s.latticeFile = some (.file sources.lattice) ∧
      t'.slot s.directory s.proclistFile = some (.file sources.proclist)) ↔ ¬s.Collides t := by
  unfold Settings.Collides
  by_cases hapart : s.latticeFile = s.proclistFile ++ ".partial"
  · have hnone := slot_foldl_without_eq_none tr.isIn_of_mem_backups
      (tr.slot_installed_of_staging hvalid hapart)
    rw [← tr.tidied] at hnone
    rw [hnone]
    constructor
    · rintro ⟨hlattice, -⟩
      contradiction
    · intro hfree
      exact absurd (Or.inl hapart) hfree
  · obtain ⟨hopens, hlattice, hproclist⟩ := tr.slot_installed hvalid hapart
    rw [tr.slot_tidied_iff hvalid hopens hlattice, tr.slot_tidied_iff hvalid hopens hproclist,
      tr.latticeSaved_iff hvalid hapart]
    have hself : ∀ name : String, name ≠ name ++ ".backup" := fun name => ne_append (by decide)
    have hsaved : s.latticeFile = s.proclistFile ++ ".backup" →
        (tr.proclistSaved = true ↔ t.slot s.directory s.proclistFile ≠ none) := by
      intro hbackup
      apply tr.proclistSaved_iff hvalid
      intro hback
      rw [hbackup, String.append_assoc] at hback
      exact ne_append (by decide) hback
    grind

end Delivery.Trace

/-- In a tree without links, a delivery that succeeds leaves both texts under their names, except
when one of the targets is also the staging or backup file of the other. -/
theorem deliver_leaves_both_texts_iff {s : Settings} {sources : Sources}
    {session session' : Session} {paths : List Pathname}
    (h : sources.deliver Session.disk s session = (.ok paths, session')) :
    (session'.tree.read s.latticePath = .ok sources.lattice ∧
      session'.tree.read s.proclistPath = .ok sources.proclist) ↔ ¬s.Collides session.tree := by
  obtain ⟨hvalid, ⟨tr⟩⟩ := Delivery.exists_trace h
  obtain ⟨hl, hp, -⟩ := Settings.validate_eq_ok hvalid
  have hlattice : s.latticePath.IsIn s.directory s.latticeFile := Settings.isIn_join hl
  have hproclist : s.proclistPath.IsIn s.directory s.proclistFile := Settings.isIn_join hp
  rw [read_eq_ok_iff hlattice, read_eq_ok_iff hproclist]
  constructor
  · rintro ⟨⟨-, -, hlattice⟩, ⟨-, -, hproclist⟩⟩
    exact (tr.slots_tidied_iff hvalid).1 ⟨hlattice, hproclist⟩
  · intro hfree
    obtain ⟨hlattice, hproclist⟩ := (tr.slots_tidied_iff hvalid).2 hfree
    have hopens := tr.opens_tidied hvalid fun hclash => hfree (.inl hclash)
    exact ⟨⟨(tr.installLattice_eq hvalid).1, hopens, hlattice⟩,
      ⟨(tr.installProclist_eq hvalid).1, hopens, hproclist⟩⟩

/-- The second staging file is the first target: the second text is lost, and the first is found
under the second's name. -/
theorem deliver_loses_text_of_staging_name :
    Sources.deliver ⟨"LAT\n", "PRO\n"⟩ Session.disk
        { latticeFile := "x.partial", proclistFile := "x" } { tree := .empty } =
      (.ok [.ofText "./x.partial", .ofText "./x"], { tree := ⟨[(["x"], .file "LAT\n")]⟩ }) ∧
    ¬((⟨[(["x"], .file "LAT\n")]⟩ : FileTree).read (.ofText "./x.partial") = .ok "LAT\n" ∧
      (⟨[(["x"], .file "LAT\n")]⟩ : FileTree).read (.ofText "./x") = .ok "PRO\n") := by
  have hdeliver : @Eq (Except OutputError (List Pathname) × Session)
      (Sources.deliver ⟨"LAT\n", "PRO\n"⟩ Session.disk
        { latticeFile := "x.partial", proclistFile := "x" } { tree := .empty })
      (.ok [.ofText "./x.partial", .ofText "./x"], { tree := ⟨[(["x"], .file "LAT\n")]⟩ }) := by
    decide +kernel
  refine ⟨hdeliver, ?_⟩
  intro hboth
  exact (deliver_leaves_both_texts_iff hdeliver).1 hboth (.inl (by decide))

end LatticeKinetics
