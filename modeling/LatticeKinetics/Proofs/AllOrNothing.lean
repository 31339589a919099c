import LatticeKinetics.Proofs.Questions

/-! A delivery writes both files or leaves the tree as it was, whatever goes wrong on the way. What
the targets are has to be seen before the directories on the way are made: a way through a missing
directory shows nothing of what lies at its end. -/

namespace LatticeKinetics

open FileTree Session Delivery

namespace Settings

def files (s : Settings) : List String :=
  [s.latticeFile, s.proclistFile]

/-- The output directory and those it lies in, and whatever else its path comes through. -/
def way (s : Settings) : List Place :=
  visited (start s.directory) s.directory

def NamesApart (s : Settings) : Prop :=
  ∀ n ∈ s.files, ∀ m ∈ s.files, n ≠ m ++ ".partial" ∧ n ≠ m ++ ".backup"

def SiblingsFree (s : Settings) (t : FileTree) : Prop :=
  ∀ n ∈ s.files, ¬IsFile (t.slot s.directory (n ++ ".partial")) ∧
    ¬IsFile (t.slot s.directory (n ++ ".backup"))

/-- The targets can be seen for what they are before anything is done: either the whole way to the
output directory is there, or no target is a directory and none is made into one on the way. -/
def Foreseen (s : Settings) (t : FileTree) : Prop :=
  t.Opens s.directory ∨ ∀ n ∈ s.files, t.slot s.directory n ≠ some .directory ∧
    home s.directory ++ [n] ∉ s.way

variable {s : Settings} {t t' : FileTree}

theorem NamesApart.apart (h : s.NamesApart) (hvalid : s.validate = .ok ()) : Apart s.files := by
  obtain ⟨hlattice, hproclist, hne⟩ := validate_eq_ok hvalid
  exact ⟨by simp [files, hne], by simp [files, hlattice, hproclist],
    fun n hn m hm => (h n hn m hm).1, fun n hn m hm => (h n hn m hm).2⟩

theorem SiblingsFree.grown (h : s.SiblingsFree t) (hgrown : Grown s.way t t') :
    s.SiblingsFree t' := by
  have hfile : ∀ q, ¬IsFile (t.entryAt q) → ¬IsFile (t'.entryAt q) := by
    intro q hq
    rcases hgrown q with hsame | ⟨-, hdirectory, -⟩
    · rwa [hsame]
    · simp [IsFile, hdirectory]
  exact fun n hn => ⟨hfile _ (h n hn).1, hfile _ (h n hn).2⟩

theorem Foreseen.regular (h : s.Foreseen t) (hvalid : s.validate = .ok ())
    (hchecked : ∀ p ∈ s.files.map s.outputDir.join, ∀ place, t.find p ≠ .ok (place, .directory))
    (hgrown : Grown s.way t t') :
    ∀ n ∈ s.files, (s.outputDir.join n).Usable → t'.slot s.directory n ≠ some .directory := by
  intro n hn husable hdirectory
  rcases h with hopens | hforeseen
  · have hname : IsName n := by
      obtain ⟨hlattice, hproclist, -⟩ := validate_eq_ok hvalid
      simp only [files, List.mem_cons, List.not_mem_nil, or_false] at hn
      rcases hn with rfl | rfl <;> assumption
    rw [slot, hgrown.entryAt_of_opens hopens] at hdirectory
    exact hchecked _ (List.mem_map_of_mem hn) _
      ((find_eq_ok_iff (isIn_join hname)).2 ⟨husable, hopens, rfl, hdirectory⟩)
  · obtain ⟨hslot, hway⟩ := hforeseen n hn
    rcases hgrown (home s.directory ++ [n]) with hsame | ⟨-, -, hvisited⟩
    · exact hslot (hsame.symm.trans hdirectory)
    · exact hway hvisited

/-- Both targets are files, no staging or backup file is left, and apart from the targets the tree
has grown at most by directories on the way to the output directory. -/
structure Delivered (s : Settings) (t t' : FileTree) : Prop where
  targets : ∀ n ∈ s.files, IsFile (t'.slot s.directory n)
  tidy : s.SiblingsFree t'
  elsewhere : ∀ q, (∀ n ∈ s.files, q ≠ home s.directory ++ [n]) →
    t'.entryAt q = t.entryAt q ∨
      t.entryAt q = none ∧ t'.entryAt q = some .directory ∧ q ∈ s.way

theorem delivered_of_made {made : FileTree} (hnames : s.NamesApart) (hfree : s.SiblingsFree made)
    (hgrown : Grown s.way t made) (htargets : ∀ n ∈ s.files, IsFile (t'.slot s.directory n))
    (hsame : ∀ q, (∀ n ∈ s.files, q ≠ home s.directory ++ [n]) →
      t'.entryAt q = made.entryAt q) : s.Delivered t t' := by
  refine ⟨htargets, ?_, ?_⟩
  · intro n hn
    have hpartial := hsame (home s.directory ++ [n ++ ".partial"]) fun m hm => by
      simpa using (hnames m hm n hn).1.symm
    have hbackup := hsame (home s.directory ++ [n ++ ".backup"]) fun m hm => by
      simpa using (hnames m hm n hn).2.symm
    rw [slot, hpartial, slot, hbackup]
    exact hfree n hn
  · intro q hq
    rw [hsame q hq]
    exact hgrown q

structure AllOrNothing {α : Type} (s : Settings) (before : Session)
    (result : Except OutputError α × Session) : Prop where
  all : ∀ a, result.1 = .ok a → s.Delivered before.tree result.2.tree
  nothing : ∀ cause, result.1 = .error cause → Grown s.way before.tree result.2.tree
  asks : AsksInTurn s.overwrite [s.latticePath, s.proclistPath] before result.2

theorem allOrNothing_of_ends {α : Type} {before : Session}
    {result : Except OutputError α × Session}
    (h : Ends (fun _ after => s.Delivered before.tree after.tree)
      (fun after => Grown s.way before.tree after.tree) result)
    (hasks : AsksInTurn s.overwrite [s.latticePath, s.proclistPath] before result.2) :
    s.AllOrNothing before result := by
  obtain ⟨outcome, after⟩ := result
  cases outcome with
  | ok a => exact ⟨fun _ _ => h, fun _ hcause => (nomatch hcause), hasks⟩
  | error cause => exact ⟨nofun, fun _ _ => h, hasks⟩

end Settings

variable {s : Settings} {session : Session}

theorem Sources.deliver_ends (sources : Sources) (hgrounded : session.tree.Grounded)
    (hnames : s.NamesApart) (hfree : s.SiblingsFree session.tree)
    (hforeseen : s.Foreseen session.tree) :
    Ends (fun _ after => s.Delivered session.tree after.tree)
      (fun after => Grown s.way session.tree after.tree)
      (sources.deliver Session.disk s session) := by
  unfold Sources.deliver
  cases hvalid : s.validate with
  | error cause => exact Grown.refl _ _
  | ok u =>
    have hapart := hnames.apart hvalid
    refine (checkTargets_ends s.overwrite (s.targets sources) session).bind ?_ ?_
    · rintro _ checked ⟨htree, hchecked⟩
      have hgrown := (Disk.makeDirectories_grown s.outputDir checked).mono
        s.visited_outputDir_subset
      rw [htree] at hgrown
      refine (ends_of_state (fun made => Grown s.way session.tree made.tree) hgrown).bind ?_
        fun _ _ hfailed => hfailed
      intro _ made hgrown
      by_cases hopens : made.tree.Opens s.directory
      · have hundone : ∀ after, Undone made.tree after → Grown s.way session.tree after.tree := by
          intro after hafter q
          rw [hafter q]
          exact hgrown q
        have hfree' := hfree.grown hgrown
        have hregular := hforeseen.regular hvalid hchecked hgrown
        have hstage := stage_ends
          [(s.latticeFile, sources.lattice), (s.proclistFile, sources.proclist)] hapart
          (fun n hn => (hfree' n hn).1) (Underway.start ⟨hopens, hgrounded.grown hgrown hopens⟩)
        refine hstage.bind ?_ fun _ after hafter => hundone after hafter
        intro _ staged hstaged
        refine (replace_ends hapart hregular (fun n hn => (hfree' n hn).2) hstaged).bind ?_
          fun _ after hafter => hundone after hafter
        rintro _ final ⟨htargets, hsame⟩
        exact Settings.delivered_of_made hnames hfree' hgrown htargets hsame
      · refine (stage_ends_of_not_opens hopens _).bind (fun _ _ hstaged => hstaged.elim) ?_
        intro _ after hafter
        change Grown _ _ after.tree
        rw [hafter]
        exact hgrown
    · intro cause checked htree
      change Grown _ _ checked.tree
      rw [htree]
      exact Grown.refl _ _

theorem Sources.asksInTurn_deliver (sources : Sources) (s : Settings) (session : Session) :
    AsksInTurn s.overwrite [s.latticePath, s.proclistPath] session
      (sources.deliver Session.disk s session).2 := by
  unfold Sources.deliver
  cases hvalid : s.validate with
  | error cause => exact asksInTurn_of_silent rfl
  | ok u =>
    have hasks := asksInTurn_checkTargets s.overwrite (s.targets sources) session
    dsimp only
    rw [bind_apply]
    refine hasks.congr ?_
    generalize checkTargets Session.disk s.overwrite (s.targets sources) session = result
    obtain ⟨outcome, checked⟩ := result
    cases outcome with
    | error cause => rfl
    | ok u =>
      refine (Disk.silent_makeDirectories s.outputDir).bind (fun outcome => ?_) checked
      cases outcome with
      | error fault => exact silent_pure _
      | ok u =>
        refine (silent_stage [] (s.targets sources)).bind fun outcome => ?_
        cases outcome with
        | error cause => exact silent_pure _
        | ok u =>
          refine (silent_replace _).bind fun outcome => ?_
          cases outcome <;> exact silent_pure _

/-- Delivering and building are all or nothing, and ask in turn, on every tree in which the siblings
of the targets are free and the targets can be foreseen. -/
theorem delivery_is_all_or_nothing (hgrounded : session.tree.Grounded) (hnames : s.NamesApart)
    (hfree : s.SiblingsFree session.tree) (hforeseen : s.Foreseen session.tree) :
    (∀ sources : Sources, s.AllOrNothing session (sources.deliver Session.disk s session)) ∧
      ∀ m : Model, s.AllOrNothing session (m.build Session.disk s session) := by
  have hdeliver : ∀ sources : Sources,
      s.AllOrNothing session (sources.deliver Session.disk s session) := by
    intro sources
    exact Settings.allOrNothing_of_ends
      (sources.deliver_ends hgrounded hnames hfree hforeseen)
      (sources.asksInTurn_deliver s session)
  refine ⟨hdeliver, ?_⟩
  intro m
  unfold Model.build
  cases hsources : m.buildSources s with
  | error cause =>
    exact ⟨nofun, fun _ _ => Grown.refl _ _, asksInTurn_of_silent rfl⟩
  | ok built =>
    obtain ⟨plan, sources⟩ := built
    have h := hdeliver sources
    dsimp only
    rw [bind_apply]
    generalize sources.deliver Session.disk s session = result at h ⊢
    obtain ⟨outcome, after⟩ := result
    cases outcome with
    | error cause => exact ⟨nofun, fun _ _ => h.nothing cause rfl, h.asks⟩
    | ok paths => exact ⟨fun _ _ => h.all paths rfl, fun _ hcause => (nomatch hcause), h.asks⟩

/-- Both old files may be overwritten, but a directory is in the place of the second's backup. The
first is set aside and comes back. -/
theorem delivery_undone_at_blocked_backup :
    ∃ (s : Settings) (session : Session) (sources : Sources) (cause : OutputError),
      session.tree.Grounded ∧ s.NamesApart ∧ s.SiblingsFree session.tree ∧
        s.Foreseen session.tree ∧
        (sources.deliver Session.disk s session).1 = .error cause ∧
        session.tree.read s.latticePath = .ok "old lattice" ∧
        Grown s.way session.tree (sources.deliver Session.disk s session).2.tree ∧
        AsksInTurn s.overwrite [s.latticePath, s.proclistPath] session
          (sources.deliver Session.disk s session).2 := by
  let s : Settings := { outputDir := .ofText "out" }
  let session : Session := {
    tree := ⟨[(["out"], .directory), (["out", "lattice.f90"], .file "old lattice"),
      (["out", "proclist.f90"], .file "old proclist"),
      (["out", "proclist.f90.backup"], .directory)]⟩
    replies := [true, true] }
  let sources : Sources := ⟨"LAT\n", "PRO\n"⟩
  have hgrounded : session.tree.Grounded := grounded_of_entries (by decide +kernel)
  have hnames : s.NamesApart := by
    unfold Settings.NamesApart
    decide +kernel
  have hfree : s.SiblingsFree session.tree := by
    unfold Settings.SiblingsFree
    decide +kernel
  have hforeseen : s.Foreseen session.tree := .inl ⟨by decide +kernel, by decide +kernel⟩
  have hcause : (sources.deliver Session.disk s session).1 =
      .error (.file s.proclistPath .isADirectory) := by
    decide +kernel
  have hall := (delivery_is_all_or_nothing hgrounded hnames hfree hforeseen).1 sources
  exact ⟨s, session, sources, _, hgrounded, hnames, hfree, hforeseen, hcause,
    by decide +kernel, hall.nothing _ hcause, hall.asks⟩

/-- The way to the output directory comes through a directory that is missing and has the name of a
target. It is made after the targets were checked and set aside as an old target, and with it the
way is lost: the old file does not come back and the staged files stay. -/
theorem deliver_loses_unforeseen_target :
    ∃ (s : Settings) (session : Session) (sources : Sources) (cause : OutputError),
      session.tree.Grounded ∧ s.NamesApart ∧ s.SiblingsFree session.tree ∧
        (sources.deliver Session.disk s session).1 = .error cause ∧
        ¬Grown s.way session.tree (sources.deliver Session.disk s session).2.tree := by
  let s : Settings := { outputDir := .ofText "proclist.f90/.." }
  let session : Session := { tree := ⟨[(["lattice.f90"], .file "old")]⟩ }
  let sources : Sources := ⟨"LAT\n", "PRO\n"⟩
  have hgrounded : session.tree.Grounded := grounded_of_entries (by decide +kernel)
  have hnames : s.NamesApart := by
    unfold Settings.NamesApart
    decide +kernel
  have hfree : s.SiblingsFree session.tree := by
    unfold Settings.SiblingsFree
    decide +kernel
  have hcause : (sources.deliver Session.disk s session).1 =
      .error (.file s.latticePath .notFound) := by
    decide +kernel
  refine ⟨s, session, sources, _, hgrounded, hnames, hfree, hcause, ?_⟩
  intro hgrown
  have hlost : (sources.deliver Session.disk s session).2.tree.entryAt ["lattice.f90"] = none := by
    decide +kernel
  rcases hgrown ["lattice.f90"] with hsame | ⟨hnone, -, -⟩
  · rw [hlost] at hsame
    revert hsame
    decide +kernel
  · revert hnone
    decide +kernel

end LatticeKinetics
