import LatticeKinetics.Output.Delivery
import LatticeKinetics.Proofs.DirectoryPaths

/-! What a delivery does to the tree of a session, step by step, when it succeeds. -/

namespace LatticeKinetics

namespace Session

variable {session session' : Session}

theorem bind_apply {α β : Type} (first : StateM Session α) (next : α → StateM Session β)
    (session : Session) :
    (first >>= next) session = next (first session).1 (first session).2 := rfl

theorem onTree_of_ok (operation : FileTree → Except FileFault FileTree) {tree : FileTree}
    (h : operation session.tree = .ok tree) :
    onTree operation session = (.ok (), { session with tree }) := by
  simp [onTree, h]

theorem onTree_of_error (operation : FileTree → Except FileFault FileTree) {fault : FileFault}
    (h : operation session.tree = .error fault) :
    onTree operation session = (.error fault, session) := by
  simp [onTree, h]

theorem onTree_eq_ok (operation : FileTree → Except FileFault FileTree) {u : Unit}
    (h : onTree operation session = (.ok u, session')) :
    ∃ tree, operation session.tree = .ok tree ∧ session' = { session with tree } := by
  cases hop : operation session.tree with
  | ok tree =>
    rw [onTree_of_ok operation hop] at h
    exact ⟨tree, rfl, (Prod.mk.inj h).2.symm⟩
  | error fault =>
    rw [onTree_of_error operation hop] at h
    exact nomatch congrArg Prod.fst h

theorem bind_eq_ok {ε ε' α β : Type} {first : StateM Session (Except ε α)}
    {next : Except ε α → StateM Session (Except ε' β)} {b : β}
    (h : (first >>= next) session = (.ok b, session'))
    (herror : ∀ e after, next (.error e) after ≠ (.ok b, session')) :
    ∃ a after, first session = (.ok a, after) ∧ next (.ok a) after = (.ok b, session') := by
  rw [bind_apply] at h
  cases hfirst : first session with
  | mk outcome after =>
    rw [hfirst] at h
    cases outcome with
    | error e => exact absurd h (herror e after)
    | ok a => exact ⟨a, after, rfl, h⟩

end Session

namespace FileTree

def Grown (places : List Place) (t t' : FileTree) : Prop :=
  ∀ q, t'.entryAt q = t.entryAt q ∨
    t.entryAt q = none ∧ t'.entryAt q = some .directory ∧ q ∈ places

variable {places : List Place} {t t' t'' : FileTree} {p : Pathname}

theorem Grown.refl (places : List Place) (t : FileTree) : Grown places t t :=
  fun _ => .inl rfl

theorem Grown.trans (h : Grown places t t') (h' : Grown places t' t'') :
    Grown places t t'' := by
  intro q
  rcases h q with hq | ⟨hnone, hdirectory, hmem⟩
  · rcases h' q with hq' | ⟨hnone, hdirectory, hmem⟩
    · exact .inl (hq'.trans hq)
    · exact .inr ⟨hq ▸ hnone, hdirectory, hmem⟩
  · rcases h' q with hq' | ⟨hnone', -, -⟩
    · exact .inr ⟨hnone, hq'.trans hdirectory, hmem⟩
    · rw [hdirectory] at hnone'
      contradiction

theorem Grown.mono {more : List Place} (h : Grown places t t') (hmore : places ⊆ more) :
    Grown more t t' := by
  intro q
  rcases h q with hq | ⟨hnone, hdirectory, hmem⟩
  · exact .inl hq
  · exact .inr ⟨hnone, hdirectory, hmore hmem⟩

theorem visited_subset_of_isPrefix {place : Place} {first segments : List String}
    (h : first <+: segments) : visited place first ⊆ visited place segments := by
  obtain ⟨rest, rfl⟩ := h
  exact fun q hq => mem_visited_append.2 (.inl hq)

theorem makeDirectory_grown (h : t.makeDirectory p = .ok t') :
    Grown (visited (origin p) p.segments) t t' := by
  unfold makeDirectory at h
  simp only [bind_eq_ok_iff] at h
  obtain ⟨_, -, place, hplace, h⟩ := h
  have hpre : (p.segments.reverse.dropWhile (·.isEmpty)).reverse <+: p.segments := by
    rw [← List.reverse_suffix, List.reverse_reverse]
    exact List.dropWhile_suffix _
  have hmem : place ∈ visited (origin p) p.segments := by
    apply visited_subset_of_isPrefix hpre
    rw [walk_eq_ok hplace]
    exact foldl_follow_mem_visited ..
  split at h
  · simp at h
  · rename_i hnone
    obtain rfl := pure_eq_ok_iff.1 h
    have hnamed : Named place := by
      by_contra hnot
      rw [entryAt_of_not_named hnot] at hnone
      contradiction
    intro q
    rw [entryAt_insert hnamed]
    split
    · rename_i hq
      exact .inr ⟨hq ▸ hnone, rfl, hq ▸ hmem⟩
    · exact .inl rfl

theorem trimmed_isPrefix (segments : List String) : Pathname.trimmed segments <+: segments := by
  obtain ⟨tail, heq, -⟩ := exists_eq_trimmed_append segments
  exact ⟨tail, heq.symm⟩

theorem parent_isPrefix (p : Pathname) : p.parent.segments <+: p.segments :=
  (trimmed_isPrefix _).trans ((List.dropLast_prefix _).trans (trimmed_isPrefix _))

theorem origin_eq_of_isPrefix {p q : Pathname} (h : p.segments <+: q.segments)
    (hp : p.isEmpty = false) : origin p = origin q := by
  obtain ⟨segments⟩ := p
  obtain ⟨longer⟩ := q
  obtain ⟨rest, rfl⟩ := h
  cases segments with
  | nil => simp [Pathname.isEmpty] at hp
  | cons first segments =>
    unfold origin Pathname.isAbsolute
    by_cases hfirst : first = ""
    · cases segments with
      | nil => simp [Pathname.isEmpty, hfirst] at hp
      | cons second segments => simp [hfirst]
    · simp [hfirst]

end FileTree

namespace Disk

open Session FileTree

theorem makeDirectory_disk_grown (p : Pathname) (session : Session) :
    Grown (visited (origin p) p.segments) session.tree
      (Session.disk.makeDirectory p session).2.tree := by
  change Grown _ _ (onTree (·.makeDirectory p) session).2.tree
  cases h : session.tree.makeDirectory p with
  | ok tree =>
    rw [onTree_of_ok _ h]
    exact makeDirectory_grown h
  | error fault =>
    rw [onTree_of_error _ h]
    exact Grown.refl _ _

theorem settle_state (p : Pathname) (outcome : Except FileFault Unit) (session : Session) :
    (Session.disk.settle p outcome session).2 = session := by
  cases outcome with
  | ok _ => rfl
  | error fault =>
    rw [settle, bind_apply]
    split <;> rfl

theorem makeDirectories_grown (p : Pathname) (session : Session) :
    Grown (visited (origin p) p.segments) session.tree
      (Session.disk.makeDirectories p session).2.tree := by
  rw [makeDirectories]
  split
  · exact Grown.refl _ _
  · rename_i hempty
    rw [bind_apply]
    have hfirst := makeDirectory_disk_grown p session
    generalize Session.disk.makeDirectory p session = result at hfirst ⊢
    obtain ⟨outcome, after⟩ := result
    cases outcome with
    | ok u =>
      dsimp only
      rw [settle_state]
      exact hfirst
    | error fault =>
      cases fault with
      | notFound =>
        dsimp only at hfirst ⊢
        rw [bind_apply]
        have habove : Grown (visited (origin p) p.segments) after.tree
            (Session.disk.makeDirectories p.parent after).2.tree := by
          by_cases hparent : p.parent.isEmpty = true
          · rw [makeDirectories, dif_pos hparent]
            exact Grown.refl _ _
          · rw [← origin_eq_of_isPrefix (parent_isPrefix p) (by simpa using hparent)]
            exact (makeDirectories_grown p.parent after).mono
              (visited_subset_of_isPrefix (parent_isPrefix p))
        generalize Session.disk.makeDirectories p.parent after = result at habove ⊢
        obtain ⟨outcome, above⟩ := result
        cases outcome with
        | error fault => exact hfirst.trans habove
        | ok u =>
          dsimp only
          rw [bind_apply, settle_state]
          exact (hfirst.trans habove).trans (makeDirectory_disk_grown p above)
      | _ =>
        dsimp only
        rw [settle_state]
        exact hfirst
termination_by p.segments.length
decreasing_by exact Pathname.length_parent_lt (by simpa using ‹¬p.isEmpty = true›)

theorem remove_tree (p : Pathname) (session : Session) :
    (Session.disk.remove p session).2.tree = session.tree.without p := by
  change (onTree (·.remove p) session).2.tree = _
  unfold without
  cases h : session.tree.remove p with
  | ok tree =>
    rw [onTree_of_ok _ h]
    rfl
  | error fault =>
    rw [onTree_of_error _ h]
    rfl

theorem removeAll_tree (ps : List Pathname) (session : Session) :
    (Session.disk.removeAll ps session).2.tree = ps.foldl without session.tree := by
  induction ps generalizing session with
  | nil => rfl
  | cons p ps ih =>
    rw [removeAll, bind_apply, ih, remove_tree]
    rfl

end Disk

namespace Delivery

open Session FileTree

variable {session session' : Session}

theorem checkTarget_tree (overwrite : Overwrite) (path : Pathname) (session : Session) :
    (checkTarget Session.disk overwrite path session).2.tree = session.tree := by
  unfold checkTarget
  rw [bind_apply]
  have hstate : (Session.disk.status path session).2 = session := rfl
  rw [hstate]
  cases (Session.disk.status path session).1 with
  | none => rfl
  | some kind =>
    cases kind with
    | other => rfl
    | regular =>
      cases overwrite with
      | force => rfl
      | refuse =>
        dsimp only
        rw [bind_apply]
        split <;> rfl

theorem checkTargets_tree (overwrite : Overwrite) (ts : List Target) (session : Session) :
    (checkTargets Session.disk overwrite ts session).2.tree = session.tree := by
  induction ts generalizing session with
  | nil => rfl
  | cons t ts ih =>
    rw [checkTargets, bind_apply]
    have hfirst := checkTarget_tree overwrite t.path session
    generalize checkTarget Session.disk overwrite t.path session = result at hfirst ⊢
    obtain ⟨outcome, after⟩ := result
    cases outcome with
    | error e => exact hfirst
    | ok u => exact (ih after).trans hfirst

theorem stage_cons_eq_ok {staged : List Pathname} {t : Target} {ts : List Target} {u : Unit}
    (h : stage Session.disk staged (t :: ts) session = (.ok u, session')) :
    ∃ tree, session.tree.write t.path.staging t.text = .ok tree ∧
      stage Session.disk (staged ++ [t.path]) ts { session with tree } = (.ok u, session') := by
  rw [stage] at h
  obtain ⟨_, after, hwrite, hrest⟩ := bind_eq_ok h fun _ _ hfail => nomatch congrArg Prod.fst hfail
  obtain ⟨tree, htree, rfl⟩ := onTree_eq_ok (·.write t.path.staging t.text) hwrite
  exact ⟨tree, htree, hrest⟩

theorem setAside_cons_eq_ok {paths saved ps saved' : List Pathname} {p : Pathname}
    (h : setAside Session.disk paths saved (p :: ps) session = (.ok saved', session')) :
    (¬∃ x, session.tree.find p = .ok x) ∧
        setAside Session.disk paths saved ps session = (.ok saved', session') ∨
      ∃ tree, session.tree.rename p p.backup = .ok tree ∧
        setAside Session.disk paths (saved ++ [p]) ps { session with tree } =
          (.ok saved', session') := by
  rw [setAside, bind_apply] at h
  have hstatus : Session.disk.status p session =
      ((session.tree.find p).toOption.map (·.2.kind), session) := rfl
  rw [hstatus] at h
  cases hfind : session.tree.find p with
  | error fault =>
    rw [hfind] at h
    exact .inl ⟨by simp, h⟩
  | ok found =>
    rw [hfind] at h
    obtain ⟨_, after, hrename, hrest⟩ :=
      bind_eq_ok h fun _ _ hfail => nomatch congrArg Prod.fst hfail
    obtain ⟨tree, htree, rfl⟩ := onTree_eq_ok (·.rename p p.backup) hrename
    exact .inr ⟨tree, htree, hrest⟩

theorem install_cons_eq_ok {paths saved installed ps : List Pathname} {p : Pathname} {u : Unit}
    (h : install Session.disk paths saved installed (p :: ps) session = (.ok u, session')) :
    ∃ tree, session.tree.rename p.staging p = .ok tree ∧
      install Session.disk paths saved (installed ++ [p]) ps { session with tree } =
        (.ok u, session') := by
  rw [install] at h
  obtain ⟨_, after, hrename, hrest⟩ := bind_eq_ok h fun _ _ hfail => nomatch congrArg Prod.fst hfail
  obtain ⟨tree, htree, rfl⟩ := onTree_eq_ok (·.rename p.staging p) hrename
  exact ⟨tree, htree, hrest⟩

theorem replace_eq_ok {paths : List Pathname} {u : Unit}
    (h : replace Session.disk paths session = (.ok u, session')) :
    ∃ saved after installed, setAside Session.disk paths [] paths session = (.ok saved, after) ∧
      install Session.disk paths saved [] paths after = (.ok (), installed) ∧
      session'.tree = (saved.map (·.backup)).foldl without installed.tree := by
  unfold replace at h
  obtain ⟨saved, after, hset, h⟩ := bind_eq_ok h fun _ _ hfail => nomatch congrArg Prod.fst hfail
  obtain ⟨_, installed, hinstall, h⟩ :=
    bind_eq_ok h fun _ _ hfail => nomatch congrArg Prod.fst hfail
  refine ⟨saved, after, installed, hset, hinstall, ?_⟩
  rw [← Disk.removeAll_tree]
  exact congrArg (·.2.tree) h.symm

end Delivery

namespace Sources

open Session Delivery

theorem deliver_eq_ok {sources : Sources} {s : Settings} {session session' : Session}
    {paths : List Pathname} (h : sources.deliver Session.disk s session = (.ok paths, session')) :
    s.validate = .ok () ∧ ∃ checked made staged,
      checked.tree = session.tree ∧
      made = (Session.disk.makeDirectories s.outputDir checked).2 ∧
      stage Session.disk [] (s.targets sources) made = (.ok (), staged) ∧
      replace Session.disk [s.latticePath, s.proclistPath] staged = (.ok (), session') := by
  unfold deliver at h
  cases hvalid : s.validate with
  | error cause =>
    rw [hvalid] at h
    exact nomatch congrArg Prod.fst h
  | ok u =>
    rw [hvalid] at h
    obtain ⟨_, checked, hcheck, h⟩ :=
      bind_eq_ok h fun _ _ hfail => nomatch congrArg Prod.fst hfail
    obtain ⟨_, made, hmade, h⟩ := bind_eq_ok h fun _ _ hfail => nomatch congrArg Prod.fst hfail
    obtain ⟨_, staged, hstage, h⟩ := bind_eq_ok h fun _ _ hfail => nomatch congrArg Prod.fst hfail
    obtain ⟨_, after, hreplace, h⟩ :=
      bind_eq_ok h fun _ _ hfail => nomatch congrArg Prod.fst hfail
    obtain rfl : after = session' := (Prod.mk.inj h).2
    refine ⟨rfl, checked, made, staged, ?_, by rw [hmade], hstage, hreplace⟩
    have htree := checkTargets_tree s.overwrite (s.targets sources) session
    rw [hcheck] at htree
    exact htree

end Sources
end LatticeKinetics
