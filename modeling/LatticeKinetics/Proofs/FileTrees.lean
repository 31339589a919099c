import LatticeKinetics.Files.Tree
import LatticeKinetics.Proofs.Outcome

/-! What the operations on a tree of files do to its entries, and when a path that led somewhere
still leads there afterwards: files can come and go beside the directories of the path, since no
directory of the path lies at or below a place that is none. -/

namespace LatticeKinetics

namespace FileTree

variable {t t' : FileTree}

section Lookup

variable {entries : List (Place × Entry)} {place source target q : Place} {entry : Entry}

private theorem lookup_cons_ite (entries : List (Place × Entry)) (key q : Place) (entry : Entry) :
    ((key, entry) :: entries).lookup q = if q = key then some entry else entries.lookup q := by
  rw [List.lookup_cons]
  by_cases h : q = key
  · simp [h]
  · simp [h, beq_eq_false_iff_ne.2 h]

private theorem lookup_erased (entries : List (Place × Entry)) (place q : Place) :
    (entries.filter fun e => e.1 ≠ place).lookup q =
      if q = place then none else entries.lookup q := by
  induction entries with
  | nil => simp
  | cons e entries ih =>
    obtain ⟨key, entry⟩ := e
    by_cases hkey : key = place
    · rw [List.filter_cons_of_neg (by simpa using hkey), ih, lookup_cons_ite]
      by_cases hq : q = place
      · simp [hq]
      · simp [hq, hkey]
    · rw [List.filter_cons_of_pos (by simpa using hkey), lookup_cons_ite, lookup_cons_ite, ih]
      by_cases hq : q = key
      · simp [hq, hkey]
      · simp [hq]

private def moved (source target : Place) (e : Place × Entry) : Place × Entry :=
  if source <+: e.1 then (target ++ e.1.drop source.length, e.2) else e

private theorem lookup_moved_target (entries : List (Place × Entry)) (hst : ¬source <+: target) :
    ((entries.filter fun e => e.1 ≠ target).map (moved source target)).lookup target =
      entries.lookup source := by
  induction entries with
  | nil => rfl
  | cons e entries ih =>
    obtain ⟨key, entry⟩ := e
    have hne : source ≠ target := fun h => hst (h ▸ List.prefix_refl source)
    by_cases hkey : key = target
    · rw [List.filter_cons_of_neg (by simpa using hkey), ih, lookup_cons_ite]
      simp [hkey, hne]
    · rw [List.filter_cons_of_pos (by simpa using hkey), List.map_cons, lookup_cons_ite, ih]
      by_cases hpre : source <+: key
      · obtain ⟨rest, rfl⟩ := hpre
        cases rest with
        | nil => simp [moved]
        | cons first rest => simp [moved, lookup_cons_ite]
      · have hsource : source ≠ key := fun h => hpre (h ▸ List.prefix_refl source)
        simp [moved, hpre, lookup_cons_ite, hsource, Ne.symm hkey]

private theorem lookup_moved (entries : List (Place × Entry)) (ht : ¬target <+: q) :
    ((entries.filter fun e => e.1 ≠ target).map (moved source target)).lookup q =
      if source <+: q then none else entries.lookup q := by
  have hq : q ≠ target := fun h => ht (h ▸ List.prefix_refl q)
  induction entries with
  | nil => simp
  | cons e entries ih =>
    obtain ⟨key, entry⟩ := e
    by_cases hkey : key = target
    · rw [List.filter_cons_of_neg (by simpa using hkey), ih, lookup_cons_ite]
      simp [hkey, hq]
    · rw [List.filter_cons_of_pos (by simpa using hkey), List.map_cons, lookup_cons_ite entries]
      by_cases hpre : source <+: key
      · have hother : q ≠ target ++ key.drop source.length := fun h => ht ⟨_, h.symm⟩
        have hmoved : moved source target (key, entry) =
            (target ++ key.drop source.length, entry) := if_pos hpre
        rw [hmoved, lookup_cons_ite, if_neg hother, ih]
        by_cases hqk : q = key
        · simp [hqk, hpre]
        · simp [hqk]
      · have hmoved : moved source target (key, entry) = (key, entry) := if_neg hpre
        rw [hmoved, lookup_cons_ite, ih]
        by_cases hqk : q = key
        · simp [hqk, hpre]
        · simp [hqk]

private theorem lookup_moved_below {rest : Place} (hs : entries.lookup (source ++ rest) = none)
    (ht : entries.lookup (target ++ rest) = none) :
    ((entries.filter fun e => e.1 ≠ target).map (moved source target)).lookup (target ++ rest) =
      none := by
  rw [List.lookup_eq_none_iff] at hs ht ⊢
  intro e he
  obtain ⟨⟨key, entry⟩, hmem, rfl⟩ := List.mem_map.1 he
  replace hmem := (List.mem_filter.1 hmem).1
  unfold moved
  split
  · rename_i hpre
    obtain ⟨below, rfl⟩ := hpre
    simpa using hs _ hmem
  · exact ht _ hmem

end Lookup

def Named (place : Place) : Prop :=
  place ≠ Place.top ∧ Place.isUpward place = false

theorem entryAt_of_named {place : Place} (h : Named place) :
    t.entryAt place = t.entries.lookup place := by
  unfold entryAt
  rw [if_neg (by simp [h.1, h.2])]

theorem entryAt_of_not_named {place : Place} (h : ¬Named place) :
    t.entryAt place = some .directory := by
  unfold entryAt
  rw [if_pos (by unfold Named at h; grind)]

theorem entryAt_congr {q : Place} (h : Named q → t'.entries.lookup q = t.entries.lookup q) :
    t'.entryAt q = t.entryAt q := by
  by_cases hq : Named q
  · rw [entryAt_of_named hq, entryAt_of_named hq, h hq]
  · rw [entryAt_of_not_named hq, entryAt_of_not_named hq]

theorem entryAt_erase {place : Place} (h : Named place) (q : Place) :
    (t.erase place).entryAt q = if q = place then none else t.entryAt q := by
  by_cases hq : q = place
  · rw [hq, if_pos rfl, entryAt_of_named h, erase, lookup_erased, if_pos rfl]
  · rw [if_neg hq]
    apply entryAt_congr
    intro _
    rw [erase, lookup_erased, if_neg hq]

theorem entryAt_insert {place : Place} (h : Named place) (entry : Entry) (q : Place) :
    (t.insert place entry).entryAt q = if q = place then some entry else t.entryAt q := by
  by_cases hq : q = place
  · rw [hq, if_pos rfl, entryAt_of_named h, insert, List.lookup_append, erase, lookup_erased,
      if_pos rfl, Option.none_or, lookup_cons_ite, if_pos rfl]
  · rw [if_neg hq]
    apply entryAt_congr
    intro _
    rw [insert, List.lookup_append, erase, lookup_erased, if_neg hq, lookup_cons_ite, if_neg hq,
      List.lookup_nil, Option.or_none]

theorem entryAt_move_target {source target : Place} (hs : Named source) (ht : Named target)
    (hst : ¬source <+: target) : (t.move source target).entryAt target = t.entryAt source := by
  rw [entryAt_of_named hs, entryAt_of_named ht]
  exact lookup_moved_target t.entries hst

theorem entryAt_move_source {source target : Place} (hs : Named source)
    (hts : ¬target <+: source) : (t.move source target).entryAt source = none := by
  rw [entryAt_of_named hs]
  exact (lookup_moved t.entries hts).trans (if_pos (List.prefix_refl source))

theorem entryAt_move_below_source {source target q : Place} (hq : Named q) (hs : source <+: q)
    (ht : ¬target <+: q) : (t.move source target).entryAt q = none := by
  rw [entryAt_of_named hq]
  exact (lookup_moved t.entries ht).trans (if_pos hs)

theorem entryAt_move_below_target {source target rest : Place} (hs : Named (source ++ rest))
    (ht : Named (target ++ rest)) (hsource : t.entryAt (source ++ rest) = none)
    (htarget : t.entryAt (target ++ rest) = none) :
    (t.move source target).entryAt (target ++ rest) = none := by
  rw [entryAt_of_named hs] at hsource
  rw [entryAt_of_named ht] at htarget ⊢
  exact lookup_moved_below hsource htarget

theorem entryAt_move_of_not_isPrefix {source target q : Place} (hs : ¬source <+: q)
    (ht : ¬target <+: q) : (t.move source target).entryAt q = t.entryAt q := by
  apply entryAt_congr
  intro _
  exact (lookup_moved t.entries ht).trans (if_neg hs)

def visited (place : Place) : List String → List Place
  | [] => [place]
  | segment :: rest => place :: visited (follow place segment) rest

theorem mem_visited_append {place q : Place} {first next : List String} :
    q ∈ visited place (first ++ next) ↔
      q ∈ visited place first ∨ q ∈ visited (first.foldl follow place) next := by
  induction first generalizing place with
  | nil =>
    cases next with
    | nil => simp [visited]
    | cons segment next => simp [visited]
  | cons segment first ih => simp [visited, ih, or_assoc]

theorem foldl_follow_mem_visited (place : Place) (segments : List String) :
    segments.foldl follow place ∈ visited place segments := by
  induction segments generalizing place with
  | nil => simp [visited]
  | cons segment segments ih => exact List.mem_cons_of_mem _ (ih (follow place segment))

structure Passable (t : FileTree) (place : Place) (segments : List String) : Prop where
  directories : ∀ q ∈ visited place segments, t.entryAt q = some .directory
  lengths : ∀ segment ∈ segments, segment.utf8ByteSize ≤ nameLimit

theorem enter_eq_ok_iff {place : Place} {u : Unit} :
    t.enter place = .ok u ↔ t.entryAt place = some .directory := by
  unfold enter
  split <;> simp [*]

theorem walk_append_eq_ok_iff {place q : Place} {segments : List String} {name : String} :
    t.walk place (segments ++ [name]) = .ok q ↔
      t.Passable place segments ∧ name.utf8ByteSize ≤ nameLimit ∧
        follow (segments.foldl follow place) name = q := by
  induction segments generalizing place with
  | nil =>
    simp only [List.nil_append, walk, bind_eq_ok_iff, enter_eq_ok_iff, guard_eq_ok_iff,
      exists_const, List.foldl_nil, Except.ok.injEq, Nat.not_lt]
    constructor
    · rintro ⟨hdir, hlength, hq⟩
      exact ⟨⟨by simpa [visited] using hdir, by simp⟩, hlength, hq⟩
    · rintro ⟨hpass, hlength, hq⟩
      exact ⟨hpass.directories place (by simp [visited]), hlength, hq⟩
  | cons segment segments ih =>
    simp only [List.cons_append, walk, bind_eq_ok_iff, enter_eq_ok_iff, guard_eq_ok_iff,
      exists_const, List.foldl_cons, Nat.not_lt, ih]
    constructor
    · rintro ⟨hdir, hsegment, hpass, hlength, hq⟩
      refine ⟨⟨?_, ?_⟩, hlength, hq⟩
      · exact List.forall_mem_cons.2 ⟨hdir, hpass.directories⟩
      · exact List.forall_mem_cons.2 ⟨hsegment, hpass.lengths⟩
    · rintro ⟨⟨hdirs, hlengths⟩, hlength, hq⟩
      obtain ⟨hdir, hdirs⟩ := List.forall_mem_cons.1 hdirs
      obtain ⟨hsegment, hlengths⟩ := List.forall_mem_cons.1 hlengths
      exact ⟨hdir, hsegment, ⟨hdirs, hlengths⟩, hlength, hq⟩

theorem walk_eq_ok {place q : Place} {segments : List String}
    (h : t.walk place segments = .ok q) : q = segments.foldl follow place := by
  induction segments generalizing place with
  | nil => exact (Except.ok.inj h).symm
  | cons segment segments ih =>
    simp only [walk, bind_eq_ok_iff, guard_eq_ok_iff] at h
    obtain ⟨_, -, -, h⟩ := h
    exact ih h

/-- A name that leads into a directory and nowhere else. -/
structure IsName (name : String) : Prop where
  moving : Pathname.isIdle name = false
  downward : name ≠ ".."
  relative : name ≠ "/"

theorem IsName.follow_eq {name : String} (h : IsName name) (place : Place) :
    follow place name = place ++ [name] := by
  unfold follow
  simp [h.moving, h.downward]

theorem IsName.named {name : String} (h : IsName name) (place : Place) :
    Named (place ++ [name]) := by
  constructor
  · intro htop
    have hlast := congrArg List.getLast? htop
    simp [Place.top, h.relative] at hlast
  · simp [Place.isUpward, h.downward]

theorem IsName.not_prefix_follow {name segment : String} {place q : Place} (h : IsName name)
    (hq : ¬place ++ [name] <+: q) (hne : follow q segment ≠ place ++ [name]) :
    ¬place ++ [name] <+: follow q segment := by
  unfold follow at hne ⊢
  split
  · exact hq
  · split
    · unfold Place.parent
      split
      · rename_i htop
        exact htop ▸ hq
      · split
        · intro hpre
          rcases List.prefix_concat_iff.1 hpre with heq | hpre
          · exact h.downward (List.append_inj_right' heq rfl |> List.singleton_inj.1)
          · exact hq hpre
        · exact fun hpre => hq (hpre.trans (List.dropLast_prefix q))
    · rename_i hidle hup
      rw [if_neg hidle, if_neg hup] at hne
      intro hpre
      rcases List.prefix_concat_iff.1 hpre with heq | hpre
      · exact hne heq.symm
      · exact hq hpre

/-- A walk that does not come through a place does not come through anything below it. -/
theorem IsName.not_prefix_of_mem_visited {name : String} {place start : Place}
    {segments : List String} (h : IsName name) (hstart : ¬place ++ [name] <+: start)
    (hvisited : place ++ [name] ∉ visited start segments) :
    ∀ q ∈ visited start segments, ¬place ++ [name] <+: q := by
  induction segments generalizing start with
  | nil => simpa [visited] using hstart
  | cons segment segments ih =>
    unfold visited at hvisited ⊢
    rw [List.mem_cons, not_or] at hvisited
    obtain ⟨-, hrest⟩ := hvisited
    have hne : follow start segment ≠ place ++ [name] := by
      rintro heq
      apply hrest
      rw [← heq]
      cases segments <;> simp [visited]
    exact List.forall_mem_cons.2 ⟨hstart, ih (h.not_prefix_follow hstart hne) hrest⟩

end FileTree
end LatticeKinetics
