import LatticeKinetics.Proofs.Rollback

/-! How the steps of a delivery end. Each loop keeps the delivery on its way as long as it succeeds,
and where it fails every place is again what it was before staging. -/

namespace LatticeKinetics

open FileTree

namespace Session

variable {ε ε' α β : Type} {session : Session}

/-- What is true at the end: `good` of a result and the session, `bad` of the session after an
error. -/
def Ends (good : α → Session → Prop) (bad : Session → Prop) : Except ε α × Session → Prop
  | (.ok a, after) => good a after
  | (.error _, after) => bad after

theorem Ends.bind {first : StateM Session (Except ε α)}
    {next : Except ε α → StateM Session (Except ε' β)} {good : α → Session → Prop}
    {good' : β → Session → Prop} {bad bad' : Session → Prop}
    (h : Ends good bad (first session))
    (hok : ∀ a after, good a after → Ends good' bad' (next (.ok a) after))
    (herror : ∀ e after, bad after → Ends good' bad' (next (.error e) after)) :
    Ends good' bad' ((first >>= next) session) := by
  rw [bind_apply]
  cases hfirst : first session with
  | mk outcome after =>
    rw [hfirst] at h
    cases outcome with
    | ok a => exact hok a after h
    | error e => exact herror e after h

theorem Ends.imp {outcome : Except ε α × Session} {good good' : α → Session → Prop}
    {bad bad' : Session → Prop} (h : Ends good bad outcome)
    (hgood : ∀ a after, good a after → good' a after) (hbad : ∀ after, bad after → bad' after) :
    Ends good' bad' outcome := by
  obtain ⟨outcome, after⟩ := outcome
  cases outcome with
  | ok a => exact hgood a after h
  | error e => exact hbad after h

theorem ends_of_state (always : Session → Prop) {outcome : Except ε α × Session}
    (h : always outcome.2) : Ends (fun _ => always) always outcome := by
  obtain ⟨outcome, after⟩ := outcome
  cases outcome <;> exact h

theorem ends_onTree (operation : FileTree → Except FileFault FileTree) (session : Session) :
    Ends (fun _ after => ∃ tree, operation session.tree = .ok tree ∧ after = { session with tree })
      (fun after => after = session) (onTree operation session) := by
  cases h : operation session.tree with
  | ok tree =>
    rw [onTree_of_ok operation h]
    exact ⟨tree, rfl, rfl⟩
  | error fault =>
    rw [onTree_of_error operation h]
    rfl

end Session

namespace Delivery

open Session

variable {s : Settings} {names done rest saved : List String} {o t : FileTree} {n : String}
  {session : Session}

def Undone (o : FileTree) (after : Session) : Prop :=
  ∀ q, after.tree.entryAt q = o.entryAt q

/-- A target that can be reached and was not saved is not there. -/
def PassedOver (s : Settings) (o : FileTree) (names saved : List String) : Prop :=
  ∀ n ∈ names, n ∉ saved → (s.outputDir.join n).Usable → o.slot s.directory n = none

namespace Underway

theorem entryAt_of_ne_staging (h : Underway s names o t [] []) {q : Place}
    (hq : ∀ n ∈ names, q ≠ home s.directory ++ [n ++ ".partial"]) :
    t.entryAt q = o.entryAt q := by
  rcases desk_or_elsewhere (home s.directory) names q with ⟨n, hn, rfl | rfl | rfl⟩ | hoff
  · obtain ⟨text, hdesk⟩ := h.desks n hn
    exact hdesk.target.trans (by simp [slot])
  · exact absurd rfl (hq n hn)
  · obtain ⟨text, hdesk⟩ := h.desks n hn
    exact hdesk.backup.trans (by simp [slot])
  · exact h.elsewhere q hoff

theorem entryAt_unstaged (h : Underway s names o t [] [])
    (hfree : ¬IsFile (t.slot s.directory (n ++ ".partial"))) (q : Place) :
    (((n :: names).map fun m => (s.outputDir.join m).staging).foldl without t).entryAt q =
      o.entryAt q := by
  have husable : ∀ m ∈ n :: names, IsFile (t.slot s.directory (m ++ ".partial")) →
      (s.outputDir.join m).staging.Usable := by
    refine List.forall_mem_cons.2 ⟨fun hfile => absurd hfile hfree, ?_⟩
    intro m hm _
    obtain ⟨text, hdesk⟩ := h.desks m hm
    exact hdesk.usable
  obtain ⟨-, hgone, hkept⟩ := h.firm.foldl_without (fun m _ => s.isIn_staging m) husable
  by_cases hq : ∃ m ∈ names, q = home s.directory ++ [m ++ ".partial"]
  · obtain ⟨m, hm, rfl⟩ := hq
    obtain ⟨text, hdesk⟩ := h.desks m hm
    have hfile : t.slot s.directory (m ++ ".partial") ≠ some .directory := by
      simp [hdesk.staging]
    exact (hgone m (List.mem_cons_of_mem _ hm) hfile).trans hdesk.fresh.symm
  · have hoff : ∀ m ∈ names, q ≠ home s.directory ++ [m ++ ".partial"] :=
      fun m hm heq => hq ⟨m, hm, heq⟩
    rw [hkept q, h.entryAt_of_ne_staging hoff]
    exact List.forall_mem_cons.2 ⟨fun hfile => absurd hfile hfree, fun m hm _ => hoff m hm⟩

end Underway

theorem stage_ends (rest : List (String × String))
    (hapart : Apart (done ++ rest.map (·.1)))
    (hfree : ∀ n ∈ rest.map (·.1), ¬IsFile (o.slot s.directory (n ++ ".partial")))
    (h : Underway s done o session.tree [] []) :
    Ends (fun _ after => Underway s (done ++ rest.map (·.1)) o after.tree [] []) (Undone o)
      (stage Session.disk (done.map s.outputDir.join)
        (rest.map fun r => ⟨s.outputDir.join r.1, r.2⟩) session) := by
  induction rest generalizing done session with
  | nil =>
    rw [List.map_nil, List.append_nil]
    exact h
  | cons r rest ih =>
    obtain ⟨n, text⟩ := r
    rw [List.map_cons, List.forall_mem_cons] at hfree
    obtain ⟨hn, hfree⟩ := hfree
    have hlist : done ++ ((n, text) :: rest).map (·.1) = done ++ [n] ++ rest.map (·.1) := by simp
    rw [hlist] at hapart ⊢
    have hnext := hapart.sublist (List.sublist_append_left _ _)
    rw [List.map_cons, stage]
    refine (ends_onTree (·.write (s.outputDir.join n).staging text) session).bind ?_ ?_
    · rintro _ after ⟨tree, hwrite, rfl⟩
      have hstaged : Underway s (done ++ [n]) o ({ session with tree } : Session).tree [] [] :=
        h.stage hnext hn hwrite
      have hrest := ih hapart hfree hstaged
      rwa [List.map_append] at hrest
    · rintro fault after rfl
      have hstaging : ∀ m ∈ done, home s.directory ++ [n ++ ".partial"] ≠
          home s.directory ++ [m ++ ".partial"] := by
        intro m hm
        have hne : n ≠ m := by
          rintro rfl
          exact hnext.not_mem_of_append hm
        simpa [String.append_left_inj] using hne
      have hfile : ¬IsFile (after.tree.slot s.directory (n ++ ".partial")) := by
        rwa [slot, h.entryAt_of_ne_staging hstaging]
      have hpaths : ((n :: done).map fun m => (s.outputDir.join m).staging) =
          (s.outputDir.join n).staging :: (done.map s.outputDir.join).map (·.staging) := by simp
      intro q
      rw [← h.entryAt_unstaged hfile q, hpaths, ← Disk.removeAll_tree]
      rfl

theorem stage_ends_of_not_opens {text : String} (h : ¬session.tree.Opens s.directory)
    (targets : List Target) :
    Ends (fun _ _ => False) (fun after => after.tree = session.tree)
      (stage Session.disk [] (⟨s.outputDir.join n, text⟩ :: targets) session) := by
  rw [stage]
  refine (ends_onTree (·.write (s.outputDir.join n).staging text) session).bind ?_ ?_
  · rintro _ after ⟨tree, hwrite, -⟩
    exact absurd (write_eq_ok (s.isIn_staging n) hwrite).1 h
  · rintro fault after rfl
    refine (Disk.removeAll_tree [(s.outputDir.join n).staging] after).trans ?_
    exact without_of_not_opens (s.isIn_staging n) h

theorem setAside_ends (hnames : names = done ++ rest) (hapart : Apart names)
    (hregular : ∀ n ∈ names, (s.outputDir.join n).Usable →
      o.slot s.directory n ≠ some .directory)
    (hfree : ∀ n ∈ names, ¬IsFile (o.slot s.directory (n ++ ".backup")))
    (hsaved : saved.Sublist done)
    (hpassed : PassedOver s o done saved)
    (h : Underway s names o session.tree saved []) :
    Ends
      (fun paths after => ∃ saved : List String, paths = saved.map s.outputDir.join ∧
        saved.Sublist names ∧ PassedOver s o names saved ∧
        Underway s names o after.tree saved [])
      (Undone o)
      (setAside Session.disk (names.map s.outputDir.join) (saved.map s.outputDir.join)
        (rest.map s.outputDir.join) session) := by
  induction rest generalizing done saved session with
  | nil =>
    rw [List.append_nil] at hnames
    exact ⟨saved, rfl, hnames ▸ hsaved, hnames ▸ hpassed, h⟩
  | cons n rest ih =>
    have hn : n ∈ names := by simp [hnames]
    have hnew : n ∉ saved := fun hmem =>
      Apart.not_mem_of_append (hnames ▸ hapart) (hsaved.subset hmem)
    have hnext : names = done ++ [n] ++ rest := by simp [hnames]
    obtain ⟨text, hdesk⟩ := h.desks n hn
    have htarget : session.tree.slot s.directory n = o.slot s.directory n := by
      simpa [hnew] using hdesk.target
    have hin := Settings.isIn_join (s := s) (hapart.isName n hn)
    have hstatus : Session.disk.status (s.outputDir.join n) session =
        ((session.tree.find (s.outputDir.join n)).toOption.map (·.2.kind), session) := rfl
    rw [List.map_cons, setAside, bind_apply, hstatus]
    cases hfind : session.tree.find (s.outputDir.join n) with
    | error fault =>
      refine ih hnext (hsaved.trans (List.sublist_append_left _ _)) ?_ h
      intro m hm hnot husable
      rcases List.mem_append.1 hm with hm | hm
      · exact hpassed m hm hnot husable
      · obtain rfl := List.mem_singleton.1 hm
        rw [← htarget, Option.eq_none_iff_forall_ne_some]
        intro entry hentry
        have hfound := (find_eq_ok_iff hin).2 ⟨husable, h.firm.opens, rfl, hentry⟩
        rw [hfind] at hfound
        contradiction
    | ok found =>
      obtain ⟨husable, -, -, hentry⟩ := (find_eq_ok_iff hin).1 hfind
      have hfile : IsFile (o.slot s.directory n) := by
        rw [htarget] at hentry
        cases hkind : found.2 with
        | file old => exact ⟨old, hkind ▸ hentry⟩
        | directory => exact absurd (hkind ▸ hentry) (hregular n hn husable)
      refine (ends_onTree (·.rename (s.outputDir.join n) (s.outputDir.join n).backup)
        session).bind ?_ ?_
      · rintro _ after ⟨tree, hrename, rfl⟩
        have hset : Underway s names o ({ session with tree } : Session).tree (saved ++ [n]) [] :=
          h.setAside hapart hn hnew hfile (hfree n hn) hrename
        have hpassed' : PassedOver s o (done ++ [n]) (saved ++ [n]) := by
          intro m hm hnot
          rw [List.mem_append, not_or] at hnot
          exact hpassed m ((List.mem_append.1 hm).resolve_right hnot.2) hnot.1
        have hrest := ih hnext (hsaved.append (List.Sublist.refl [n])) hpassed' hset
        rwa [List.map_append] at hrest
      · rintro fault after rfl q
        have hsub : saved.Sublist names := by
          rw [hnames]
          exact hsaved.trans (List.sublist_append_left _ _)
        exact h.entryAt_rollBack hapart hsub (List.nil_subset _) q

theorem install_ends (hnames : names = done ++ rest) (hapart : Apart names)
    (hsaved : saved.Sublist names)
    (hpassed : PassedOver s o names saved)
    (h : Underway s names o session.tree saved done) :
    Ends (fun _ after => Underway s names o after.tree saved names) (Undone o)
      (install Session.disk (names.map s.outputDir.join) (saved.map s.outputDir.join)
        (done.map s.outputDir.join) (rest.map s.outputDir.join) session) := by
  induction rest generalizing done session with
  | nil =>
    rw [List.append_nil] at hnames
    exact hnames ▸ h
  | cons n rest ih =>
    have hn : n ∈ names := by simp [hnames]
    have hnew : n ∉ done := Apart.not_mem_of_append (hnames ▸ hapart)
    rw [List.map_cons, install]
    refine (ends_onTree (·.rename (s.outputDir.join n).staging (s.outputDir.join n))
      session).bind ?_ ?_
    · rintro _ after ⟨tree, hrename, rfl⟩
      have hinstalled : Underway s names o ({ session with tree } : Session).tree saved
          (done ++ [n]) := h.install hapart hn hnew (hpassed n hn) hrename
      have hrest := ih (by simp [hnames]) hinstalled
      rwa [List.map_append] at hrest
    · rintro fault after rfl q
      have hsub : done ⊆ names := fun m hm => by simp [hnames, hm]
      exact h.entryAt_rollBack hapart hsaved hsub q

namespace Underway

theorem tidied (h : Underway s names o t saved names) (hapart : Apart names)
    (hsaved : saved.Sublist names) {tidy : FileTree}
    (htidy : tidy = ((saved.map s.outputDir.join).map (·.backup)).foldl without t) :
    (∀ n ∈ names, IsFile (tidy.slot s.directory n)) ∧
      ∀ q, (∀ n ∈ names, q ≠ home s.directory ++ [n]) → tidy.entryAt q = o.entryAt q := by
  rw [List.map_map] at htidy
  have hin : ∀ n ∈ saved, ((·.backup) ∘ s.outputDir.join : String → Pathname) n
      |>.IsIn s.directory (n ++ ".backup") := fun n _ => s.isIn_backup n
  have husable : ∀ n ∈ saved, IsFile (t.slot s.directory (n ++ ".backup")) →
      (((·.backup) ∘ s.outputDir.join : String → Pathname) n).Usable := by
    intro n hn _
    obtain ⟨text, hdesk⟩ := h.desks n (hsaved.subset hn)
    exact (hdesk.ofSaved hn).2.2.2
  obtain ⟨-, hgone, hkept⟩ := h.firm.foldl_without hin husable
  rw [← htidy] at hgone hkept
  constructor
  · intro n hn
    obtain ⟨text, hdesk⟩ := h.desks n hn
    refine ⟨text, (hkept _ ?_).trans ?_⟩
    · intro m hm _
      simpa using hapart.backup n hn m (hsaved.subset hm)
    · exact hdesk.target.trans (if_pos hn)
  · intro q hq
    rcases desk_or_elsewhere (home s.directory) names q with ⟨n, hn, rfl | rfl | rfl⟩ | hoff
    · exact absurd rfl (hq n hn)
    · obtain ⟨text, hdesk⟩ := h.desks n hn
      refine (hkept _ fun m _ _ => by simp [partial_ne_backup]).trans ?_
      exact (hdesk.staging.trans (if_pos hn)).trans hdesk.fresh.symm
    · obtain ⟨text, hdesk⟩ := h.desks n hn
      by_cases hmem : n ∈ saved
      · obtain ⟨⟨old, hold⟩, hfree, -⟩ := hdesk.ofSaved hmem
        refine (hgone n hmem ?_).trans hfree.symm
        simp [hdesk.backup, hmem, hold]
      · refine (hkept _ fun m hm _ => ?_).trans (hdesk.backup.trans (if_neg hmem))
        have hne : n ≠ m := fun heq => hmem (heq ▸ hm)
        simpa [String.append_left_inj] using hne
    · rw [hkept q fun n hn _ => hoff n (hsaved.subset hn) _ (by simp), h.elsewhere q hoff]

end Underway

theorem replace_ends (hapart : Apart names)
    (hregular : ∀ n ∈ names, (s.outputDir.join n).Usable →
      o.slot s.directory n ≠ some .directory)
    (hfree : ∀ n ∈ names, ¬IsFile (o.slot s.directory (n ++ ".backup")))
    (h : Underway s names o session.tree [] []) :
    Ends
      (fun _ after => (∀ n ∈ names, IsFile (after.tree.slot s.directory n)) ∧
        ∀ q, (∀ n ∈ names, q ≠ home s.directory ++ [n]) →
          after.tree.entryAt q = o.entryAt q)
      (Undone o) (replace Session.disk (names.map s.outputDir.join) session) := by
  unfold replace
  refine (setAside_ends (List.nil_append names).symm hapart hregular hfree
    (List.Sublist.refl []) nofun h).bind ?_ fun _ _ hundone => hundone
  rintro _ cleared ⟨saved, rfl, hsaved, hpassed, hset⟩
  refine (install_ends (List.nil_append names).symm hapart hsaved hpassed hset).bind ?_
    fun _ _ hundone => hundone
  intro _ installed hinstalled
  exact hinstalled.tidied hapart hsaved (Disk.removeAll_tree _ _)

end Delivery

end LatticeKinetics
