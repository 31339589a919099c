import LatticeKinetics.Proofs.DeliveryOutcomes

/-! What a delivery asks before it overwrites a file. All questions come first, one for each target
that is there; the steps after them ask nothing. -/

namespace LatticeKinetics

open FileTree Session

namespace Session

variable {α β : Type}

def Silent (action : StateM Session α) : Prop :=
  ∀ session, (action session).2.asked = session.asked

theorem silent_pure (a : α) : Silent (pure a) :=
  fun _ => rfl

theorem Silent.bind {first : StateM Session α} {next : α → StateM Session β} (h : Silent first)
    (hnext : ∀ a, Silent (next a)) : Silent (first >>= next) := by
  intro session
  rw [bind_apply, hnext, h]

theorem silent_onTree (operation : FileTree → Except FileFault FileTree) :
    Silent (onTree operation) := by
  intro session
  cases h : operation session.tree with
  | ok tree => rw [onTree_of_ok operation h]
  | error fault => rw [onTree_of_error operation h]

theorem silent_write (p : Pathname) (text : String) : Silent (Session.disk.write p text) :=
  silent_onTree _

theorem silent_makeDirectory (p : Pathname) : Silent (Session.disk.makeDirectory p) :=
  silent_onTree _

theorem silent_rename (source target : Pathname) : Silent (Session.disk.rename source target) :=
  silent_onTree _

theorem silent_remove (p : Pathname) : Silent (Session.disk.remove p) :=
  silent_onTree _

theorem silent_warn (w : DeliveryWarning) : Silent (Session.disk.warn w) :=
  fun _ => rfl

theorem silent_status (p : Pathname) : Silent (Session.disk.status p) :=
  fun _ => rfl

end Session

namespace Disk

theorem silent_settle (p : Pathname) (outcome : Except FileFault Unit) :
    Silent (Session.disk.settle p outcome) :=
  fun session => congrArg Session.asked (settle_state p outcome session)

theorem silent_makeDirectories (p : Pathname) : Silent (Session.disk.makeDirectories p) := by
  rw [makeDirectories]
  split
  · exact silent_pure _
  · rename_i hempty
    refine (silent_makeDirectory p).bind fun outcome => ?_
    cases outcome with
    | ok u => exact silent_settle p _
    | error fault =>
      cases fault with
      | notFound =>
        refine (silent_makeDirectories p.parent).bind fun above => ?_
        cases above with
        | error fault => exact silent_pure _
        | ok u => exact (silent_makeDirectory p).bind fun again => silent_settle p again
      | _ => exact silent_settle p _
termination_by p.segments.length
decreasing_by exact Pathname.length_parent_lt (by simpa using ‹¬p.isEmpty = true›)

theorem silent_removeAll (ps : List Pathname) : Silent (Session.disk.removeAll ps) := by
  induction ps with
  | nil => exact silent_pure ()
  | cons p ps ih => exact (silent_remove p).bind fun _ => ih

end Disk

namespace Delivery

theorem silent_stage (staged : List Pathname) (targets : List Target) :
    Silent (stage Session.disk staged targets) := by
  induction targets generalizing staged with
  | nil => exact silent_pure _
  | cons target targets ih =>
    refine (silent_write _ _).bind fun outcome => ?_
    cases outcome with
    | ok u => exact ih _
    | error fault => exact (Disk.silent_removeAll _).bind fun _ => silent_pure _

theorem silent_restore (ps : List Pathname) : Silent (restore Session.disk ps) := by
  induction ps with
  | nil => exact silent_pure ()
  | cons p ps ih =>
    refine (silent_rename _ _).bind fun outcome => ?_
    cases outcome with
    | ok u => exact ih
    | error fault => exact (silent_warn _).bind fun _ => ih

theorem silent_rollBack (paths installed saved : List Pathname) :
    Silent (rollBack Session.disk paths installed saved) :=
  (Disk.silent_removeAll _).bind fun _ => (Disk.silent_removeAll _).bind fun _ => silent_restore _

theorem silent_setAside (paths saved ps : List Pathname) :
    Silent (setAside Session.disk paths saved ps) := by
  induction ps generalizing saved with
  | nil => exact silent_pure _
  | cons p ps ih =>
    refine (silent_status p).bind fun found => ?_
    cases found with
    | none => exact ih saved
    | some kind =>
      refine (silent_rename _ _).bind fun outcome => ?_
      cases outcome with
      | ok u => exact ih _
      | error fault => exact (silent_rollBack _ _ _).bind fun _ => silent_pure _

theorem silent_install (paths saved installed ps : List Pathname) :
    Silent (install Session.disk paths saved installed ps) := by
  induction ps generalizing installed with
  | nil => exact silent_pure _
  | cons p ps ih =>
    refine (silent_rename _ _).bind fun outcome => ?_
    cases outcome with
    | ok u => exact ih _
    | error fault => exact (silent_rollBack _ _ _).bind fun _ => silent_pure _

theorem silent_replace (paths : List Pathname) : Silent (replace Session.disk paths) := by
  refine (silent_setAside _ _ _).bind fun outcome => ?_
  cases outcome with
  | error e => exact silent_pure _
  | ok saved =>
    refine (silent_install _ _ _ _).bind fun outcome => ?_
    cases outcome with
    | error e => exact silent_pure _
    | ok u => exact (Disk.silent_removeAll _).bind fun _ => silent_pure _

/-- Only files that are there are asked about, in the order of the paths and each at most once;
after an answer that is not yes nothing more is asked. Who overwrites by force does not ask. -/
def AsksInTurn (overwrite : Overwrite) (paths : List Pathname) (before after : Session) : Prop :=
  ∃ asked : List Pathname, after.asked = before.asked ++ asked ∧
    (overwrite = .force → asked = []) ∧ asked.Sublist paths ∧
    (∀ p ∈ asked, ∃ text, before.tree.read p = .ok text) ∧
    ∀ i, i + 1 < asked.length → before.replies[i]? = some true

theorem asksInTurn_of_silent {overwrite : Overwrite} {paths : List Pathname}
    {before after : Session} (h : after.asked = before.asked) :
    AsksInTurn overwrite paths before after :=
  ⟨[], by simp [h], fun _ => rfl, List.nil_sublist paths, by simp, by simp⟩

theorem AsksInTurn.congr {overwrite : Overwrite} {paths : List Pathname}
    {before after later : Session} (h : AsksInTurn overwrite paths before after)
    (heq : later.asked = after.asked) : AsksInTurn overwrite paths before later := by
  obtain ⟨asked, hasked, hrest⟩ := h
  exact ⟨asked, heq.trans hasked, hrest⟩

inductive Checked (overwrite : Overwrite) (path : Pathname) (before : Session) :
    Except OutputError Unit × Session → Prop
  | absent (h : ∀ found, before.tree.find path ≠ .ok found) :
    Checked overwrite path before (.ok (), before)
  | directory {place : Place} (h : before.tree.find path = .ok (place, .directory)) :
    Checked overwrite path before (.error (.file path .notRegular), before)
  | forced {place : Place} {text : String} (h : before.tree.find path = .ok (place, .file text))
    (hforce : overwrite = .force) (warnings : List DeliveryWarning) :
    Checked overwrite path before (.ok (), { before with warnings })
  | confirmed {place : Place} {text : String}
    (h : before.tree.find path = .ok (place, .file text)) (hrefuse : overwrite = .refuse)
    {replies : List Bool} (hreplies : before.replies = true :: replies) :
    Checked overwrite path before
      (.ok (), { before with replies, asked := before.asked ++ [path] })
  | declined {place : Place} {text : String}
    (h : before.tree.find path = .ok (place, .file text)) (hrefuse : overwrite = .refuse)
    (replies : List Bool) :
    Checked overwrite path before
      (.error (.conflict path), { before with replies, asked := before.asked ++ [path] })

theorem checked_checkTarget (overwrite : Overwrite) (path : Pathname) (session : Session) :
    Checked overwrite path session (checkTarget Session.disk overwrite path session) := by
  have hstatus : Session.disk.status path session =
      ((session.tree.find path).toOption.map (·.2.kind), session) := rfl
  unfold checkTarget
  rw [bind_apply, hstatus]
  cases hfind : session.tree.find path with
  | error fault => exact .absent (by simp [hfind])
  | ok found =>
    obtain ⟨place, entry⟩ := found
    cases entry with
    | directory => exact .directory hfind
    | file text =>
      cases hoverwrite : overwrite with
      | force => exact .forced hfind rfl _
      | refuse =>
        have hconfirm : Session.disk.confirm path session =
            (session.replies.head?.getD false, { session with
              replies := session.replies.tail, asked := session.asked ++ [path] }) := rfl
        change Checked _ _ _ ((Session.disk.confirm path >>= _) session)
        rw [bind_apply, hconfirm]
        cases hreplies : session.replies with
        | nil => exact .declined hfind rfl _
        | cons reply replies =>
          cases reply with
          | false => exact .declined hfind rfl _
          | true => exact .confirmed hfind rfl hreplies

theorem read_of_find {t : FileTree} {p : Pathname} {place : Place} {text : String}
    (h : t.find p = .ok (place, .file text)) : t.read p = .ok text := by
  unfold FileTree.read
  rw [h]
  rfl

theorem asksInTurn_checkTargets (overwrite : Overwrite) (targets : List Target)
    (session : Session) :
    AsksInTurn overwrite (targets.map (·.path)) session
      (checkTargets Session.disk overwrite targets session).2 := by
  induction targets generalizing session with
  | nil => exact asksInTurn_of_silent rfl
  | cons target targets ih =>
    have hchecked := checked_checkTarget overwrite target.path session
    rw [List.map_cons, checkTargets, bind_apply]
    generalize checkTarget Session.disk overwrite target.path session = result at hchecked ⊢
    cases hchecked with
    | absent h =>
      obtain ⟨asked, hasked, hforce, hsub, hread, hreplies⟩ := ih session
      exact ⟨asked, hasked, hforce, hsub.cons _, hread, hreplies⟩
    | directory h => exact asksInTurn_of_silent rfl
    | forced h hforce warnings =>
      obtain ⟨asked, hasked, hforce, hsub, hread, hreplies⟩ := ih { session with warnings }
      exact ⟨asked, hasked, hforce, hsub.cons _, hread, hreplies⟩
    | confirmed h hrefuse hreplies =>
      rename_i place text replies
      obtain ⟨asked, hasked, -, hsub, hread, hrest⟩ :=
        ih { session with replies, asked := session.asked ++ [target.path] }
      refine ⟨target.path :: asked, by simpa using hasked, by simp [hrefuse], hsub.cons_cons _,
        List.forall_mem_cons.2 ⟨⟨text, read_of_find h⟩, hread⟩, ?_⟩
      intro i hi
      rw [hreplies]
      cases i with
      | zero => rfl
      | succ i => exact hrest i (by simpa using hi)
    | declined h hrefuse replies =>
      rename_i place text
      refine ⟨[target.path], rfl, by simp [hrefuse], by simp, ?_, by simp⟩
      exact List.forall_mem_singleton.2 ⟨text, read_of_find h⟩

theorem checkTargets_ends (overwrite : Overwrite) (targets : List Target) (session : Session) :
    Ends
      (fun _ after => after.tree = session.tree ∧
        ∀ p ∈ targets.map (·.path), ∀ place, session.tree.find p ≠ .ok (place, .directory))
      (fun after => after.tree = session.tree)
      (checkTargets Session.disk overwrite targets session) := by
  induction targets generalizing session with
  | nil => exact ⟨rfl, by simp⟩
  | cons target targets ih =>
    have hrest : ∀ next : Session, next.tree = session.tree →
        (∀ place, session.tree.find target.path ≠ .ok (place, .directory)) →
        Ends
          (fun _ after => after.tree = session.tree ∧
            ∀ p ∈ (target :: targets).map (·.path), ∀ place,
              session.tree.find p ≠ .ok (place, .directory))
          (fun after => after.tree = session.tree)
          (checkTargets Session.disk overwrite targets next) := by
      intro next htree hhead
      have h := ih next
      rw [htree] at h
      refine h.imp ?_ fun _ hafter => hafter
      rintro _ after ⟨hafter, htargets⟩
      exact ⟨hafter, List.forall_mem_cons.2 ⟨hhead, htargets⟩⟩
    have hchecked := checked_checkTarget overwrite target.path session
    rw [checkTargets, bind_apply]
    generalize checkTarget Session.disk overwrite target.path session = result at hchecked ⊢
    cases hchecked with
    | absent h => exact hrest session rfl fun place => h (place, .directory)
    | directory h => exact rfl
    | forced h hforce warnings => exact hrest { session with warnings } rfl (by simp [h])
    | confirmed h hrefuse hreplies => exact hrest _ rfl (by simp [h])
    | declined h hrefuse replies => exact rfl

end Delivery

end LatticeKinetics
