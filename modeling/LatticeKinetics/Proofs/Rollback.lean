import LatticeKinetics.Proofs.Delivery
import LatticeKinetics.Proofs.GroundedTrees

/-! Undoing a delivery. At every point of a delivery the names of each target hold what the lists of
staged, saved and installed targets say; rolling back from any such point brings every place back to
what it was. -/

namespace LatticeKinetics

open FileTree

def deskNames (name : String) : List String :=
  [name, name ++ ".partial", name ++ ".backup"]

@[simp] theorem self_mem_deskNames (name : String) : name ∈ deskNames name := by
  simp [deskNames]

@[simp] theorem partial_mem_deskNames (name : String) :
    name ++ ".partial" ∈ deskNames name := by
  simp [deskNames]

@[simp] theorem backup_mem_deskNames (name : String) : name ++ ".backup" ∈ deskNames name := by
  simp [deskNames]

/-- Plain names, none of which is the name of another's staging or backup file. -/
structure Apart (names : List String) : Prop where
  nodup : names.Nodup
  isName : ∀ n ∈ names, IsName n
  staging : ∀ n ∈ names, ∀ m ∈ names, n ≠ m ++ ".partial"
  backup : ∀ n ∈ names, ∀ m ∈ names, n ≠ m ++ ".backup"

namespace Apart

variable {names : List String} {n m a b : String}

theorem deskNames_disjoint (h : Apart names) (hn : n ∈ names) (hm : m ∈ names) (hne : n ≠ m)
    (ha : a ∈ deskNames n) (hb : b ∈ deskNames m) : a ≠ b := by
  have hstaging : n ++ ".partial" ≠ m ++ ".partial" := fun heq =>
    hne ((String.append_left_inj _).1 heq)
  have hbackup : n ++ ".backup" ≠ m ++ ".backup" := fun heq =>
    hne ((String.append_left_inj _).1 heq)
  simp only [deskNames, List.mem_cons, List.not_mem_nil, or_false] at ha hb
  rcases ha with rfl | rfl | rfl <;> rcases hb with rfl | rfl | rfl
  · exact hne
  · exact h.staging _ hn _ hm
  · exact h.backup _ hn _ hm
  · exact (h.staging _ hm _ hn).symm
  · exact hstaging
  · exact partial_ne_backup _ _
  · exact (h.backup _ hm _ hn).symm
  · exact (partial_ne_backup _ _).symm
  · exact hbackup

theorem not_mem_of_append {done rest : List String} (h : Apart (done ++ n :: rest)) : n ∉ done :=
  fun hmem => (List.nodup_append.1 h.nodup).2.2 n hmem n List.mem_cons_self rfl

theorem sublist {names' : List String} (h : Apart names) (hsub : names'.Sublist names) :
    Apart names' :=
  ⟨h.nodup.sublist hsub, fun n hn => h.isName n (hsub.subset hn),
    fun n hn m hm => h.staging n (hsub.subset hn) m (hsub.subset hm),
    fun n hn m hm => h.backup n (hsub.subset hn) m (hsub.subset hm)⟩

end Apart

theorem desk_or_elsewhere (home : Place) (names : List String) (q : Place) :
    (∃ n ∈ names, q = home ++ [n] ∨ q = home ++ [n ++ ".partial"] ∨ q = home ++ [n ++ ".backup"]) ∨
      ∀ n ∈ names, ∀ a ∈ deskNames n, q ≠ home ++ [a] := by
  by_cases hq : ∃ n ∈ names, ∃ a ∈ deskNames n, q = home ++ [a]
  · obtain ⟨n, hn, a, ha, rfl⟩ := hq
    exact .inl ⟨n, hn, by simpa [deskNames] using ha⟩
  · exact .inr fun n hn a ha heq => hq ⟨n, hn, a, ha, heq⟩

namespace Delivery

variable {s : Settings} {names saved installed saved' installed' : List String}
  {o t t' : FileTree} {n text : String}

/-- What the names of a staged target hold, compared with the tree `o` before staging. -/
structure Desk (s : Settings) (o t : FileTree) (saved installed : List String)
    (n text : String) : Prop where
  target : t.slot s.directory n =
    if n ∈ installed then some (.file text)
    else if n ∈ saved then none else o.slot s.directory n
  staging : t.slot s.directory (n ++ ".partial") =
    if n ∈ installed then none else some (.file text)
  backup : t.slot s.directory (n ++ ".backup") =
    if n ∈ saved then o.slot s.directory n else o.slot s.directory (n ++ ".backup")
  fresh : o.slot s.directory (n ++ ".partial") = none
  usable : (s.outputDir.join n).staging.Usable
  ofSaved : n ∈ saved → IsFile (o.slot s.directory n) ∧
    o.slot s.directory (n ++ ".backup") = none ∧
    (s.outputDir.join n).Usable ∧ (s.outputDir.join n).backup.Usable
  ofInstalled : n ∈ installed → (s.outputDir.join n).Usable ∧
    (n ∉ saved → o.slot s.directory n = none)

theorem Desk.congr (h : Desk s o t saved installed n text)
    (hslots : ∀ a ∈ deskNames n, t'.slot s.directory a = t.slot s.directory a)
    (hsaved : n ∈ saved' ↔ n ∈ saved) (hinstalled : n ∈ installed' ↔ n ∈ installed) :
    Desk s o t' saved' installed' n text := by
  obtain ⟨htarget, hstaging, hbackup⟩ : t'.slot s.directory n = t.slot s.directory n ∧
      t'.slot s.directory (n ++ ".partial") = t.slot s.directory (n ++ ".partial") ∧
      t'.slot s.directory (n ++ ".backup") = t.slot s.directory (n ++ ".backup") := by
    simpa [deskNames] using hslots
  constructor
  · simp only [htarget, h.target, hsaved, hinstalled]
  · simp only [hstaging, h.staging, hinstalled]
  · simp only [hbackup, h.backup, hsaved]
  · exact h.fresh
  · exact h.usable
  · exact fun hmem => h.ofSaved (hsaved.1 hmem)
  · intro hmem
    obtain ⟨husable, hnone⟩ := h.ofInstalled (hinstalled.1 hmem)
    exact ⟨husable, fun hnot => hnone fun hyes => hnot (hsaved.2 hyes)⟩

/-- A delivery on its way: the named targets are staged, some of them saved and some installed, and
nothing else has changed. -/
structure Underway (s : Settings) (names : List String) (o t : FileTree)
    (saved installed : List String) : Prop where
  firm : t.Firm s.directory
  desks : ∀ n ∈ names, ∃ text, Desk s o t saved installed n text
  elsewhere : ∀ q, (∀ n ∈ names, ∀ a ∈ deskNames n, q ≠ home s.directory ++ [a]) →
    t.entryAt q = o.entryAt q

namespace Underway

theorem start (h : o.Firm s.directory) : Underway s [] o o [] [] :=
  ⟨h, by simp, fun _ _ => rfl⟩

theorem step (h : Underway s names o t saved installed) (hapart : Apart names) (hn : n ∈ names)
    (hfirm : t'.Firm s.directory)
    (hsame : ∀ q, (∀ a ∈ deskNames n, q ≠ home s.directory ++ [a]) →
      t'.entryAt q = t.entryAt q)
    (hsaved : ∀ m, m ≠ n → (m ∈ saved' ↔ m ∈ saved))
    (hinstalled : ∀ m, m ≠ n → (m ∈ installed' ↔ m ∈ installed))
    (hdesk : ∃ text, Desk s o t' saved' installed' n text) :
    Underway s names o t' saved' installed' := by
  refine ⟨hfirm, ?_, ?_⟩
  · intro m hm
    by_cases hne : m = n
    · exact hne ▸ hdesk
    · obtain ⟨text, hold⟩ := h.desks m hm
      refine ⟨text, hold.congr ?_ (hsaved m hne) (hinstalled m hne)⟩
      intro a ha
      apply hsame
      intro b hb heq
      exact hapart.deskNames_disjoint hm hn hne ha hb (by simpa using heq)
  · intro q hq
    rw [hsame q (hq n hn), h.elsewhere q hq]

theorem setAside (h : Underway s names o t saved []) (hapart : Apart names) (hn : n ∈ names)
    (hnew : n ∉ saved) (hfile : IsFile (o.slot s.directory n))
    (hfree : ¬IsFile (o.slot s.directory (n ++ ".backup")))
    (hrename : t.rename (s.outputDir.join n) (s.outputDir.join n).backup = .ok t') :
    Underway s names o t' (saved ++ [n]) [] := by
  have hname := hapart.isName n hn
  have hne : n ++ ".backup" ≠ n := (ne_append (by decide)).symm
  obtain ⟨text, hdesk⟩ := h.desks n hn
  obtain ⟨old, hold⟩ := hfile
  have htarget : t.slot s.directory n = some (.file old) := by
    simpa [hnew, hold] using hdesk.target
  have hbackup : t.slot s.directory (n ++ ".backup") = o.slot s.directory (n ++ ".backup") := by
    simpa [hnew] using hdesk.backup
  obtain ⟨⟨husable, husable'⟩, -, rfl, entry, hentry, hnot⟩ :=
    rename_eq_ok (Settings.isIn_join hname) (s.isIn_backup n) hne hrename
  have hdirectory : t.slot s.directory (n ++ ".backup") ≠ some .directory :=
    hnot ⟨old, Option.some.inj (hentry.symm.trans htarget)⟩
  obtain ⟨hfirm, hview⟩ := h.firm.move hname (isName_backup n) hne htarget hdirectory
  have hempty : o.slot s.directory (n ++ ".backup") = none :=
    eq_none_of_not_file hfree (hbackup ▸ hdirectory)
  refine h.step hapart hn hfirm ?_ ?_ (by simp) ⟨text, ?_⟩
  · intro q hq
    rw [hview, if_neg (hq _ (by simp)), if_neg (hq _ (by simp))]
  · intro m hm
    simp [hm]
  · constructor
    · rw [slot_move hname (isName_backup n) hne, if_neg hne.symm, if_pos rfl]
      simp
    · rw [slot_move hname (isName_backup n) hne, if_neg (partial_ne_backup _ _),
        if_neg (ne_append (by decide)).symm]
      exact hdesk.staging
    · rw [slot_move hname (isName_backup n) hne, if_pos rfl, htarget, if_pos (by simp), hold]
    · exact hdesk.fresh
    · exact hdesk.usable
    · exact fun _ => ⟨⟨old, hold⟩, hempty, husable, husable'⟩
    · simp

theorem install (h : Underway s names o t saved installed) (hapart : Apart names) (hn : n ∈ names)
    (hnew : n ∉ installed)
    (hclear : n ∉ saved → (s.outputDir.join n).Usable → o.slot s.directory n = none)
    (hrename : t.rename (s.outputDir.join n).staging (s.outputDir.join n) = .ok t') :
    Underway s names o t' saved (installed ++ [n]) := by
  have hname := hapart.isName n hn
  have hne : n ≠ n ++ ".partial" := ne_append (by decide)
  obtain ⟨text, hdesk⟩ := h.desks n hn
  have hstaged : t.slot s.directory (n ++ ".partial") = some (.file text) := by
    simpa [hnew] using hdesk.staging
  obtain ⟨⟨-, husable⟩, -, rfl, entry, hentry, hnot⟩ :=
    rename_eq_ok (s.isIn_staging n) (Settings.isIn_join hname) hne hrename
  have hdirectory : t.slot s.directory n ≠ some .directory :=
    hnot ⟨text, Option.some.inj (hentry.symm.trans hstaged)⟩
  obtain ⟨hfirm, hview⟩ := h.firm.move (isName_partial n) hname hne hstaged hdirectory
  refine h.step hapart hn hfirm ?_ (by simp) ?_ ⟨text, ?_⟩
  · intro q hq
    rw [hview, if_neg (hq _ (by simp)), if_neg (hq _ (by simp))]
  · intro m hm
    simp [hm]
  · constructor
    · rw [slot_move (isName_partial n) hname hne, if_pos rfl, hstaged, if_pos (by simp)]
    · rw [slot_move (isName_partial n) hname hne, if_neg hne.symm, if_pos rfl, if_pos (by simp)]
    · rw [slot_move (isName_partial n) hname hne, if_neg (ne_append (by decide)).symm,
        if_neg (partial_ne_backup _ _).symm]
      exact hdesk.backup
    · exact hdesk.fresh
    · exact hdesk.usable
    · exact hdesk.ofSaved
    · exact fun _ => ⟨husable, fun hsaved => hclear hsaved husable⟩

theorem stage (h : Underway s names o t [] []) (hapart : Apart (names ++ [n]))
    (hfree : ¬IsFile (o.slot s.directory (n ++ ".partial")))
    (hwrite : t.write (s.outputDir.join n).staging text = .ok t') :
    Underway s (names ++ [n]) o t' [] [] := by
  have hnew : ∀ m ∈ names, m ≠ n := by
    rintro m hm rfl
    exact hapart.not_mem_of_append hm
  have hdisjoint : ∀ m ∈ names, ∀ a ∈ deskNames m, ∀ b ∈ deskNames n, a ≠ b := by
    intro m hm a ha b hb
    exact hapart.deskNames_disjoint (by simp [hm]) (by simp) (hnew m hm) ha hb
  have hold : ∀ a ∈ deskNames n, t.slot s.directory a = o.slot s.directory a := by
    intro a ha
    apply h.elsewhere
    intro m hm b hb heq
    exact hdisjoint m hm b hb a ha (by simpa using heq.symm)
  obtain ⟨husable, hdirectory, hfirm, hview⟩ := h.firm.write (s.isIn_staging n) hwrite
  have hslot : ∀ a, t'.slot s.directory a =
      if a = n ++ ".partial" then some (.file text) else t.slot s.directory a := by
    intro a
    simp [slot, hview]
  have hfresh : o.slot s.directory (n ++ ".partial") = none := by
    rw [hold _ (by simp)] at hdirectory
    exact eq_none_of_not_file hfree hdirectory
  refine ⟨hfirm, ?_, ?_⟩
  · intro m hm
    rcases List.mem_append.1 hm with hm | hm
    · obtain ⟨old, hdesk⟩ := h.desks m hm
      refine ⟨old, hdesk.congr ?_ Iff.rfl Iff.rfl⟩
      intro a ha
      rw [hslot, if_neg (hdisjoint m hm a ha _ (by simp))]
    · obtain rfl := List.mem_singleton.1 hm
      refine ⟨text, ?_, ?_, ?_, hfresh, husable, by simp, by simp⟩
      · rw [hslot, if_neg (ne_append (by decide)), hold _ (by simp)]
        simp
      · rw [hslot, if_pos rfl]
        simp
      · rw [hslot, if_neg (partial_ne_backup _ _).symm, hold _ (by simp)]
        simp
  · intro q hq
    rw [hview, if_neg (hq n (by simp) _ (by simp))]
    exact h.elsewhere q fun m hm => hq m (by simp [hm])

end Underway

section Restore

def restored (t : FileTree) (p : Pathname) : FileTree :=
  (t.rename p.backup p).toOption.getD t

theorem restore_tree (ps : List Pathname) (session : Session) :
    (restore Session.disk ps session).2.tree = ps.foldl restored session.tree := by
  induction ps generalizing session with
  | nil => rfl
  | cons p ps ih =>
    have hrename : Session.disk.rename p.backup p session =
        Session.onTree (·.rename p.backup p) session := rfl
    rw [restore, Session.bind_apply, hrename, List.foldl_cons, restored]
    cases h : session.tree.rename p.backup p with
    | ok tree =>
      rw [Session.onTree_of_ok _ h]
      exact ih _
    | error fault =>
      rw [Session.onTree_of_error _ h]
      dsimp only
      rw [Session.bind_apply]
      exact ih _

theorem foldl_restored {ns : List String} (hapart : Apart ns) (h : t.Firm s.directory)
    (hready : ∀ n ∈ ns, (s.outputDir.join n).Usable ∧ (s.outputDir.join n).backup.Usable ∧
      t.slot s.directory n = none ∧ IsFile (t.slot s.directory (n ++ ".backup"))) :
    (∀ n ∈ ns,
      ((ns.map s.outputDir.join).foldl restored t).slot s.directory n =
          t.slot s.directory (n ++ ".backup") ∧
        ((ns.map s.outputDir.join).foldl restored t).slot s.directory (n ++ ".backup") = none) ∧
      ∀ q, (∀ n ∈ ns, q ≠ home s.directory ++ [n] ∧ q ≠ home s.directory ++ [n ++ ".backup"]) →
        ((ns.map s.outputDir.join).foldl restored t).entryAt q = t.entryAt q := by
  induction ns generalizing t with
  | nil => simp
  | cons n ns ih =>
    obtain ⟨⟨husable, husable', hnone, text, hfile⟩, hrest⟩ := List.forall_mem_cons.1 hready
    have hname := hapart.isName n (by simp)
    have hne : n ≠ n ++ ".backup" := ne_append (by decide)
    have hfree : t.slot s.directory n ≠ some .directory := by simp [hnone]
    have hstep : restored t (s.outputDir.join n) =
        t.move (home s.directory ++ [n ++ ".backup"]) (home s.directory ++ [n]) := by
      rw [restored, rename_of_file (s.isIn_backup n) (Settings.isIn_join hname) hne
        ⟨husable', husable⟩ h.opens hfile hfree]
      rfl
    obtain ⟨hfirm, hview⟩ := h.move (isName_backup n) hname hne hfile hfree
    rw [List.map_cons, List.foldl_cons, hstep]
    generalize t.move (home s.directory ++ [n ++ ".backup"]) (home s.directory ++ [n]) = t₁
      at hfirm hview
    have hdisjoint : ∀ m ∈ ns, ∀ a ∈ deskNames m, ∀ b ∈ deskNames n, a ≠ b := by
      intro m hm a ha b hb
      refine hapart.deskNames_disjoint (by simp [hm]) (by simp) ?_ ha hb
      rintro rfl
      exact (List.nodup_cons.1 hapart.nodup).1 hm
    have hothers : ∀ m ∈ ns, ∀ a ∈ deskNames m,
        t₁.slot s.directory a = t.slot s.directory a := by
      intro m hm a ha
      have hown := hdisjoint m hm a ha n (by simp)
      have hbackup := hdisjoint m hm a ha (n ++ ".backup") (by simp)
      simp [slot, hview, hown, hbackup]
    have hready₁ : ∀ m ∈ ns, (s.outputDir.join m).Usable ∧ (s.outputDir.join m).backup.Usable ∧
        t₁.slot s.directory m = none ∧ IsFile (t₁.slot s.directory (m ++ ".backup")) := by
      intro m hm
      rw [hothers m hm m (by simp),
        hothers m hm (m ++ ".backup") (by simp)]
      exact hrest m hm
    obtain ⟨hback, hkept⟩ := ih (hapart.sublist (List.sublist_cons_self n ns)) hfirm hready₁
    -- The names of this target are none of those that are moved later.
    have hown : ∀ a ∈ deskNames n,
        ((ns.map s.outputDir.join).foldl restored t₁).slot s.directory a =
          t₁.slot s.directory a := by
      intro a ha
      apply hkept
      intro m hm
      have happart := fun b hb => (hdisjoint m hm b hb a ha).symm
      simp [happart m (by simp), happart (m ++ ".backup") (by simp)]
    refine ⟨List.forall_mem_cons.2 ⟨⟨?_, ?_⟩, ?_⟩, ?_⟩
    · rw [hown n (by simp), hfile, slot, hview, if_pos rfl]
    · rw [hown (n ++ ".backup") (by simp), slot, hview, if_neg (by simp),
        if_pos rfl]
    · intro m hm
      rw [← hothers m hm (m ++ ".backup") (by simp)]
      exact hback m hm
    · intro q hq
      obtain ⟨⟨hq₁, hq₂⟩, hq⟩ := List.forall_mem_cons.1 hq
      rw [hkept q hq, hview, if_neg hq₁, if_neg hq₂]

theorem rollBack_tree (paths installed saved : List Pathname) (session : Session) :
    (rollBack Session.disk paths installed saved session).2.tree =
      saved.foldl restored
        ((paths.map (·.staging)).foldl without (installed.foldl without session.tree)) := by
  unfold rollBack
  rw [Session.bind_apply, Session.bind_apply, restore_tree, Disk.removeAll_tree,
    Disk.removeAll_tree]

end Restore

namespace Underway

theorem dropNew (h : Underway s names o t saved installed) (hapart : Apart names)
    (hinstalled : installed ⊆ names) {dropped : FileTree}
    (hdropped : dropped = ((names.map s.outputDir.join).map (·.staging)).foldl without
      ((installed.map s.outputDir.join).foldl without t)) :
    dropped.Firm s.directory ∧
      (∀ n ∈ names,
        dropped.slot s.directory n = (if n ∈ saved then none else o.slot s.directory n) ∧
          dropped.slot s.directory (n ++ ".partial") = none ∧
          dropped.slot s.directory (n ++ ".backup") = t.slot s.directory (n ++ ".backup")) ∧
      ∀ q, (∀ n ∈ names, ∀ a ∈ deskNames n, q ≠ home s.directory ++ [a]) →
        dropped.entryAt q = o.entryAt q := by
  rw [List.map_map] at hdropped
  have hin : ∀ n ∈ installed, (s.outputDir.join n).IsIn s.directory n := fun n hn =>
    Settings.isIn_join (hapart.isName n (hinstalled hn))
  have husable : ∀ n ∈ installed, IsFile (t.slot s.directory n) → (s.outputDir.join n).Usable := by
    intro n hn _
    obtain ⟨text, hdesk⟩ := h.desks n (hinstalled hn)
    exact (hdesk.ofInstalled hn).1
  obtain ⟨hfirm₁, hgone₁, hkept₁⟩ := h.firm.foldl_without hin husable
  generalize (installed.map s.outputDir.join).foldl without t = t₁ at hfirm₁ hgone₁ hkept₁ hdropped
  have hin' : ∀ n ∈ names, ((·.staging) ∘ s.outputDir.join : String → Pathname) n
      |>.IsIn s.directory (n ++ ".partial") := fun n _ => s.isIn_staging n
  have husable' : ∀ n ∈ names, IsFile (t₁.slot s.directory (n ++ ".partial")) →
      (((·.staging) ∘ s.outputDir.join : String → Pathname) n).Usable := by
    intro n hn _
    obtain ⟨text, hdesk⟩ := h.desks n hn
    exact hdesk.usable
  obtain ⟨hfirm₂, hgone₂, hkept₂⟩ := hfirm₁.foldl_without hin' husable'
  rw [← hdropped] at hfirm₂ hgone₂ hkept₂
  refine ⟨hfirm₂, ?_, ?_⟩
  · intro n hn
    obtain ⟨text, hdesk⟩ := h.desks n hn
    have hslot₁ : ∀ a, (∀ m ∈ installed, a ≠ m) → t₁.slot s.directory a = t.slot s.directory a :=
      fun a ha => hkept₁ _ fun m hm _ => by simpa using ha m hm
    have hslot₂ : ∀ a, (∀ m ∈ names, a ≠ m ++ ".partial") →
        dropped.slot s.directory a = t₁.slot s.directory a :=
      fun a ha => hkept₂ _ fun m hm _ => by simpa using ha m hm
    refine ⟨?_, ?_, ?_⟩
    · rw [hslot₂ n (hapart.staging n hn)]
      by_cases hmem : n ∈ installed
      · rw [hgone₁ n hmem (by simp [hdesk.target, hmem])]
        split
        · rfl
        · rename_i hnot
          exact ((hdesk.ofInstalled hmem).2 hnot).symm
      · rw [hslot₁ n fun m hm heq => hmem (heq ▸ hm), hdesk.target, if_neg hmem]
    · apply hgone₂ n hn
      rw [hslot₁ _ fun m hm => (hapart.staging m (hinstalled hm) n hn).symm, hdesk.staging]
      split <;> simp
    · rw [hslot₂ _ fun m _ => (partial_ne_backup m n).symm,
        hslot₁ _ fun m hm => (hapart.backup m (hinstalled hm) n hn).symm]
  · intro q hq
    rw [hkept₂, hkept₁, h.elsewhere q hq]
    · exact fun n hn _ => hq n (hinstalled hn) n (by simp)
    · exact fun n hn _ => hq n hn _ (by simp)

/-- Rolling back undoes everything, however far the delivery got. -/
theorem entryAt_rollBack {session : Session}
    (h : Underway s names o session.tree saved installed) (hapart : Apart names)
    (hsaved : saved.Sublist names) (hinstalled : installed ⊆ names) (q : Place) :
    (rollBack Session.disk (names.map s.outputDir.join) (installed.map s.outputDir.join)
      (saved.map s.outputDir.join) session).2.tree.entryAt q = o.entryAt q := by
  rw [rollBack_tree]
  obtain ⟨hfirm, hslots, helsewhere⟩ := h.dropNew hapart hinstalled rfl
  generalize ((names.map s.outputDir.join).map (·.staging)).foldl without
    ((installed.map s.outputDir.join).foldl without session.tree) = dropped
    at hfirm hslots helsewhere
  have hready : ∀ n ∈ saved, (s.outputDir.join n).Usable ∧ (s.outputDir.join n).backup.Usable ∧
      dropped.slot s.directory n = none ∧
      IsFile (dropped.slot s.directory (n ++ ".backup")) := by
    intro n hn
    obtain ⟨text, hdesk⟩ := h.desks n (hsaved.subset hn)
    obtain ⟨htarget, -, hbackup⟩ := hslots n (hsaved.subset hn)
    obtain ⟨hfile, -, husable, husable'⟩ := hdesk.ofSaved hn
    refine ⟨husable, husable', by rw [htarget, if_pos hn], ?_⟩
    rwa [hbackup, hdesk.backup, if_pos hn]
  obtain ⟨hback, hkept⟩ := foldl_restored (hapart.sublist hsaved) hfirm hready
  -- The names of a target that was not saved are not touched again.
  have hown : ∀ n ∈ names, n ∉ saved → ∀ a ∈ deskNames n,
      ((saved.map s.outputDir.join).foldl restored dropped).slot s.directory a =
        dropped.slot s.directory a := by
    intro n hn hnot a ha
    apply hkept
    intro m hm
    have hne : n ≠ m := fun heq => hnot (heq ▸ hm)
    have happart := fun b => hapart.deskNames_disjoint (b := b) hn (hsaved.subset hm) hne ha
    simp [happart m (by simp), happart (m ++ ".backup") (by simp)]
  rcases desk_or_elsewhere (home s.directory) names q with ⟨n, hn, rfl | rfl | rfl⟩ | hoff
  · obtain ⟨text, hdesk⟩ := h.desks n hn
    obtain ⟨htarget, -, hbackup⟩ := hslots n hn
    by_cases hmem : n ∈ saved
    · exact (hback n hmem).1.trans (hbackup.trans (hdesk.backup.trans (if_pos hmem)))
    · exact (hown n hn hmem n (by simp)).trans (htarget.trans (if_neg hmem))
  · obtain ⟨text, hdesk⟩ := h.desks n hn
    refine (hkept _ fun m hm => ?_).trans ((hslots n hn).2.1.trans hdesk.fresh.symm)
    have hne := (hapart.staging m (hsaved.subset hm) n hn).symm
    simp [hne, partial_ne_backup]
  · obtain ⟨text, hdesk⟩ := h.desks n hn
    by_cases hmem : n ∈ saved
    · exact (hback n hmem).2.trans (hdesk.ofSaved hmem).2.1.symm
    · exact (hown n hn hmem _ (by simp)).trans
        ((hslots n hn).2.2.trans (hdesk.backup.trans (if_neg hmem)))
  · rw [hkept q fun n hn => ⟨hoff n (hsaved.subset hn) _ (by simp),
      hoff n (hsaved.subset hn) _ (by simp)⟩, helsewhere q hoff]

end Underway

end Delivery

end LatticeKinetics
