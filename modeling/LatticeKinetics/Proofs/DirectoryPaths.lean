import LatticeKinetics.Proofs.FileTrees

/-! Paths into one directory. Whichever way such a path is written, it leads to the directory's own
place and from there to its last name, so the operations on these paths are operations on names. -/

namespace LatticeKinetics

namespace FileTree

variable {t t' : FileTree} {directory : List String}

def start (directory : List String) : Place :=
  if directory.head? = some "" then Place.top else []

/-- The place of the directory, if all directories on the way are there. -/
def home (directory : List String) : Place :=
  directory.foldl follow (start directory)

def Opens (t : FileTree) (directory : List String) : Prop :=
  t.Passable (start directory) directory

theorem origin_append (directory : List String) (name : String) :
    origin ⟨directory ++ [name]⟩ = start directory := by
  unfold origin start Pathname.isAbsolute
  cases directory with
  | nil => simp
  | cons first rest => simp

theorem IsName.not_prefix_start {name : String} (h : IsName name) (place : Place) :
    ¬place ++ [name] <+: start directory := by
  intro hpre
  unfold start at hpre
  split at hpre
  · have hlength := hpre.length_le
    simp only [List.length_append, List.length_singleton, Place.top] at hlength
    obtain rfl : place = [] := List.eq_nil_of_length_eq_zero (by omega)
    simp [Place.top, h.relative] at hpre
  · simp at hpre

theorem Opens.congr (h : t.Opens directory) (places : List Place)
    (hplaces : ∀ q ∈ places, (∃ place name, IsName name ∧ q = place ++ [name]) ∧
      t.entryAt q ≠ some .directory)
    (hsame : ∀ q, (∀ r ∈ places, ¬r <+: q) → t'.entryAt q = t.entryAt q) :
    t'.Opens directory := by
  refine ⟨?_, h.lengths⟩
  intro q hq
  rw [hsame q, h.directories q hq]
  intro r hr
  obtain ⟨⟨place, name, hname, rfl⟩, hentry⟩ := hplaces r hr
  apply hname.not_prefix_of_mem_visited (hname.not_prefix_start place) _ q hq
  exact fun hvisited => hentry (h.directories _ hvisited)

section Trimmed

theorem exists_eq_trimmed_append (directory : List String) :
    ∃ tail, directory = Pathname.trimmed directory ++ tail ∧
      ∀ segment ∈ tail, Pathname.isIdle segment = true := by
  cases directory with
  | nil => exact ⟨[], rfl, by simp⟩
  | cons first rest =>
    refine ⟨(rest.reverse.takeWhile Pathname.isIdle).reverse, ?_, ?_⟩
    · unfold Pathname.trimmed
      rw [List.cons_append, ← List.reverse_append, List.takeWhile_append_dropWhile,
        List.reverse_reverse]
    · intro segment hsegment
      exact List.all_eq_true.1 List.all_takeWhile segment (List.mem_reverse.1 hsegment)

theorem start_trimmed (directory : List String) :
    start (Pathname.trimmed directory) = start directory := by
  cases directory <;> rfl

theorem follow_idle {place : Place} {segment : String} (h : Pathname.isIdle segment = true) :
    follow place segment = place := by
  simp [follow, h]

theorem foldl_follow_idle {place : Place} {tail : List String}
    (h : ∀ segment ∈ tail, Pathname.isIdle segment = true) : tail.foldl follow place = place := by
  induction tail with
  | nil => rfl
  | cons segment tail ih =>
    obtain ⟨hsegment, htail⟩ := List.forall_mem_cons.1 h
    rw [List.foldl_cons, follow_idle hsegment, ih htail]

theorem eq_of_mem_visited_idle {place q : Place} {tail : List String}
    (h : ∀ segment ∈ tail, Pathname.isIdle segment = true) (hq : q ∈ visited place tail) :
    q = place := by
  induction tail with
  | nil => simpa [visited] using hq
  | cons segment tail ih =>
    obtain ⟨hsegment, htail⟩ := List.forall_mem_cons.1 h
    unfold visited at hq
    rw [follow_idle hsegment] at hq
    rcases List.mem_cons.1 hq with rfl | hq
    · rfl
    · exact ih htail hq

theorem utf8ByteSize_idle {segment : String} (h : Pathname.isIdle segment = true) :
    segment.utf8ByteSize ≤ nameLimit := by
  unfold Pathname.isIdle at h
  rw [Bool.or_eq_true, beq_iff_eq, beq_iff_eq] at h
  rcases h with rfl | rfl <;> decide

theorem passable_append_idle (place : Place) (segments : List String) {tail : List String}
    (h : ∀ segment ∈ tail, Pathname.isIdle segment = true) :
    t.Passable place (segments ++ tail) ↔ t.Passable place segments := by
  constructor
  · intro hpass
    exact ⟨fun q hq => hpass.directories q (mem_visited_append.2 (.inl hq)),
      fun segment hsegment => hpass.lengths segment (List.mem_append_left _ hsegment)⟩
  · intro hpass
    refine ⟨?_, ?_⟩
    · intro q hq
      rcases mem_visited_append.1 hq with hq | hq
      · exact hpass.directories q hq
      · rw [eq_of_mem_visited_idle h hq]
        exact hpass.directories _ (foldl_follow_mem_visited place segments)
    · intro segment hsegment
      rcases List.mem_append.1 hsegment with hsegment | hsegment
      · exact hpass.lengths segment hsegment
      · exact utf8ByteSize_idle (h segment hsegment)

theorem home_trimmed (directory : List String) :
    home (Pathname.trimmed directory) = home directory := by
  obtain ⟨tail, heq, htail⟩ := exists_eq_trimmed_append directory
  unfold home
  rw [start_trimmed]
  conv_rhs => rw [heq, List.foldl_append, ← heq, foldl_follow_idle htail]

theorem opens_trimmed : t.Opens (Pathname.trimmed directory) ↔ t.Opens directory := by
  obtain ⟨tail, heq, htail⟩ := exists_eq_trimmed_append directory
  have hpass : t.Passable (start directory) (Pathname.trimmed directory ++ tail) ↔
      t.Passable (start directory) (Pathname.trimmed directory) :=
    passable_append_idle _ _ htail
  rw [← heq] at hpass
  unfold Opens
  rw [start_trimmed]
  exact hpass.symm

end Trimmed

end FileTree

/-- The path leads to a name in the directory. Whether idle segments are left out makes no
difference to where it leads. -/
structure Pathname.IsIn (p : Pathname) (directory : List String) (name : String) : Prop where
  isName : FileTree.IsName name
  segments : p.segments = directory ++ [name] ∨ p.segments = trimmed directory ++ [name]

theorem Pathname.IsIn.name_eq {p : Pathname} {directory : List String} {name : String}
    (h : p.IsIn directory name) : p.name = name := by
  unfold Pathname.name
  rcases h.segments with hsegments | hsegments <;> simp [hsegments]

structure Pathname.Usable (p : Pathname) : Prop where
  checked : FileTree.checkPath p = .ok ()
  length : p.name.utf8ByteSize ≤ FileTree.nameLimit

namespace FileTree

variable {t t' : FileTree} {directory : List String} {p q : Pathname} {name other : String}

def slot (t : FileTree) (directory : List String) (name : String) : Option Entry :=
  t.entryAt (home directory ++ [name])

theorem locate_eq_ok_iff (hp : p.IsIn directory name) {place : Place} :
    t.locate p = .ok place ↔
      p.Usable ∧ t.Opens directory ∧ place = home directory ++ [name] := by
  have hwalk : t.walk (origin p) p.segments = .ok place ↔
      t.Opens directory ∧ name.utf8ByteSize ≤ nameLimit ∧ home directory ++ [name] = place := by
    obtain ⟨segments⟩ := p
    rcases hp.segments with rfl | rfl
    · rw [origin_append, walk_append_eq_ok_iff, hp.isName.follow_eq]
      rfl
    · rw [origin_append, walk_append_eq_ok_iff, hp.isName.follow_eq, ← home_trimmed directory,
        ← opens_trimmed]
      rfl
  unfold locate
  simp only [bind_eq_ok_iff, hwalk]
  constructor
  · rintro ⟨_, hchecked, hopens, hlength, rfl⟩
    exact ⟨⟨hchecked, hp.name_eq ▸ hlength⟩, hopens, rfl⟩
  · rintro ⟨⟨hchecked, hlength⟩, hopens, rfl⟩
    exact ⟨(), hchecked, hopens, hp.name_eq ▸ hlength, rfl⟩

theorem find_eq_ok_iff (hp : p.IsIn directory name) {place : Place} {entry : Entry} :
    t.find p = .ok (place, entry) ↔ p.Usable ∧ t.Opens directory ∧
      place = home directory ++ [name] ∧ t.slot directory name = some entry := by
  unfold find slot
  simp only [bind_eq_ok_iff, locate_eq_ok_iff hp]
  constructor
  · rintro ⟨place', ⟨husable, hopens, rfl⟩, h⟩
    split at h
    · rename_i hentry
      obtain ⟨rfl, rfl⟩ := Prod.mk.inj (pure_eq_ok_iff.1 h)
      exact ⟨husable, hopens, rfl, hentry⟩
    · simp at h
  · rintro ⟨husable, hopens, rfl, hentry⟩
    refine ⟨_, ⟨husable, hopens, rfl⟩, ?_⟩
    rw [hentry]
    rfl

theorem read_eq_ok_iff (hp : p.IsIn directory name) {text : String} :
    t.read p = .ok text ↔ p.Usable ∧ t.Opens directory ∧
      t.slot directory name = some (.file text) := by
  unfold read
  rw [bind_eq_ok_iff]
  constructor
  · rintro ⟨⟨place, entry⟩, hfind, h⟩
    obtain ⟨husable, hopens, rfl, hentry⟩ := (find_eq_ok_iff hp).1 hfind
    cases entry with
    | file found =>
      obtain rfl := pure_eq_ok_iff.1 h
      exact ⟨husable, hopens, hentry⟩
    | directory => simp at h
  · rintro ⟨husable, hopens, hentry⟩
    exact ⟨_, (find_eq_ok_iff hp).2 ⟨husable, hopens, rfl, hentry⟩, rfl⟩

theorem write_eq_ok (hp : p.IsIn directory name) {text : String} (h : t.write p text = .ok t') :
    t.Opens directory ∧ t.slot directory name ≠ some .directory ∧
      t' = t.insert (home directory ++ [name]) (.file text) := by
  unfold write at h
  rw [bind_eq_ok_iff] at h
  obtain ⟨place, hlocate, h⟩ := h
  obtain ⟨-, hopens, rfl⟩ := (locate_eq_ok_iff hp).1 hlocate
  split at h
  · simp at h
  · rename_i hentry
    exact ⟨hopens, hentry, (pure_eq_ok_iff.1 h).symm⟩

theorem usable_of_write (hp : p.IsIn directory name) {text : String}
    (h : t.write p text = .ok t') : p.Usable := by
  unfold write at h
  rw [bind_eq_ok_iff] at h
  obtain ⟨place, hlocate, -⟩ := h
  exact ((locate_eq_ok_iff hp).1 hlocate).1

theorem remove_eq_ok_iff (hp : p.IsIn directory name) :
    t.remove p = .ok t' ↔ p.Usable ∧ t.Opens directory ∧
      (∃ text, t.slot directory name = some (.file text)) ∧
      t' = t.erase (home directory ++ [name]) := by
  unfold remove
  rw [bind_eq_ok_iff]
  constructor
  · rintro ⟨⟨place, entry⟩, hfind, h⟩
    obtain ⟨husable, hopens, rfl, hentry⟩ := (find_eq_ok_iff hp).1 hfind
    cases entry with
    | file text => exact ⟨husable, hopens, ⟨text, hentry⟩, (pure_eq_ok_iff.1 h).symm⟩
    | directory => simp at h
  · rintro ⟨husable, hopens, ⟨text, hentry⟩, rfl⟩
    exact ⟨_, (find_eq_ok_iff hp).2 ⟨husable, hopens, rfl, hentry⟩, rfl⟩

theorem rename_eq_ok (hp : p.IsIn directory name) (hq : q.IsIn directory other)
    (hne : other ≠ name) (h : t.rename p q = .ok t') :
    (p.Usable ∧ q.Usable) ∧ t.Opens directory ∧
      t' = t.move (home directory ++ [name]) (home directory ++ [other]) ∧
      ∃ entry, t.slot directory name = some entry ∧
        ((∃ text, entry = .file text) → t.slot directory other ≠ some .directory) := by
  unfold rename at h
  rw [bind_eq_ok_iff] at h
  obtain ⟨⟨source, entry⟩, hfind, h⟩ := h
  obtain ⟨husable, hopens, rfl, hentry⟩ := (find_eq_ok_iff hp).1 hfind
  rw [bind_eq_ok_iff] at h
  obtain ⟨target, hlocate, h⟩ := h
  obtain ⟨husable', -, rfl⟩ := (locate_eq_ok_iff hq).1 hlocate
  have hplaces : home directory ++ [other] ≠ home directory ++ [name] := by
    intro heq
    exact hne (List.singleton_inj.1 (List.append_cancel_left heq))
  rw [if_neg hplaces] at h
  refine ⟨⟨husable, husable'⟩, hopens, ?_, entry, hentry, ?_⟩
  · split at h
    · simp at h
    · simp at h
    · split at h
      · simp at h
      · exact (pure_eq_ok_iff.1 h).symm
    · exact (pure_eq_ok_iff.1 h).symm
  · rintro ⟨text, rfl⟩ hdirectory
    unfold slot at hdirectory
    rw [hdirectory] at h
    simp at h

private theorem concat_prefix_concat {place : Place} :
    place ++ [name] <+: place ++ [other] ↔ name = other := by
  rw [List.prefix_append_right_inj]
  simp

private theorem concat_inj {place : Place} : place ++ [name] = place ++ [other] ↔ name = other := by
  simp

theorem slot_insert (h : IsName name) (entry : Entry) (other : String) :
    (t.insert (home directory ++ [name]) entry).slot directory other =
      if other = name then some entry else t.slot directory other := by
  unfold slot
  rw [entryAt_insert (h.named _)]
  simp only [concat_inj]

theorem slot_erase (h : IsName name) (other : String) :
    (t.erase (home directory ++ [name])).slot directory other =
      if other = name then none else t.slot directory other := by
  unfold slot
  rw [entryAt_erase (h.named _)]
  simp only [concat_inj]

theorem slot_move {target : String} (hs : IsName name) (ht : IsName target)
    (hne : target ≠ name) (other : String) :
    (t.move (home directory ++ [name]) (home directory ++ [target])).slot directory other =
      if other = target then t.slot directory name
      else if other = name then none else t.slot directory other := by
  unfold slot
  split
  · rename_i htarget
    rw [htarget]
    exact entryAt_move_target (hs.named _) (ht.named _) (mt concat_prefix_concat.1 hne.symm)
  · rename_i htarget
    split
    · rename_i hsource
      rw [hsource]
      exact entryAt_move_source (hs.named _) (mt concat_prefix_concat.1 hne)
    · rename_i hsource
      exact entryAt_move_of_not_isPrefix (mt concat_prefix_concat.1 (Ne.symm hsource))
        (mt concat_prefix_concat.1 (Ne.symm htarget))

namespace Opens

variable {target : String}

theorem erase (h : t.Opens directory) (hname : IsName name)
    (hslot : t.slot directory name ≠ some .directory) :
    (t.erase (home directory ++ [name])).Opens directory := by
  refine h.congr [home directory ++ [name]] ?_ ?_
  · exact List.forall_mem_singleton.2 ⟨⟨_, name, hname, rfl⟩, hslot⟩
  · intro q hq
    rw [entryAt_erase (hname.named _), if_neg]
    rintro rfl
    exact hq _ (by simp) (List.prefix_refl _)

theorem move (h : t.Opens directory) (hname : IsName name) (htarget : IsName target)
    (hslot : t.slot directory name ≠ some .directory)
    (hslot' : t.slot directory target ≠ some .directory) :
    (t.move (home directory ++ [name]) (home directory ++ [target])).Opens directory := by
  refine h.congr [home directory ++ [name], home directory ++ [target]] ?_ ?_
  · refine List.forall_mem_cons.2 ⟨⟨⟨_, name, hname, rfl⟩, hslot⟩, ?_⟩
    exact List.forall_mem_singleton.2 ⟨⟨_, target, htarget, rfl⟩, hslot'⟩
  · intro q hq
    exact entryAt_move_of_not_isPrefix (hq _ (by simp)) (hq _ (by simp))

end Opens

/-- The tree without the file at a path; what is no file stays. -/
def without (t : FileTree) (p : Pathname) : FileTree :=
  (t.remove p).toOption.getD t

theorem without_eq (hp : p.IsIn directory name) :
    t.without p = t ∨ t.slot directory name ≠ some .directory ∧
      t.without p = t.erase (home directory ++ [name]) := by
  unfold without
  cases h : t.remove p with
  | error fault => exact .inl rfl
  | ok t' =>
    obtain ⟨-, -, ⟨text, hfile⟩, rfl⟩ := (remove_eq_ok_iff hp).1 h
    exact .inr ⟨by simp [hfile], rfl⟩

theorem Opens.without (h : t.Opens directory) (hp : p.IsIn directory name) :
    (t.without p).Opens directory := by
  rcases without_eq (t := t) hp with heq | ⟨hslot, heq⟩
  · rw [heq]
    exact h
  · rw [heq]
    exact h.erase hp.isName hslot

theorem slot_without_of_ne (hp : p.IsIn directory name) (hne : other ≠ name) :
    (t.without p).slot directory other = t.slot directory other := by
  rcases without_eq (t := t) hp with heq | ⟨-, heq⟩
  · rw [heq]
  · rw [heq, slot_erase hp.isName, if_neg hne]

theorem slot_without_eq_none (hp : p.IsIn directory name) (h : t.slot directory other = none) :
    (t.without p).slot directory other = none := by
  rcases without_eq (t := t) hp with heq | ⟨-, heq⟩
  · rw [heq, h]
  · rw [heq, slot_erase hp.isName, h, ite_self]

theorem slot_without_self (hp : p.IsIn directory name) (husable : p.Usable)
    (hopens : t.Opens directory) {text : String}
    (h : t.slot directory name = some (.file text)) :
    (t.without p).slot directory name = none := by
  have hremove := (remove_eq_ok_iff hp).2 ⟨husable, hopens, ⟨text, h⟩, rfl⟩
  unfold FileTree.without
  rw [hremove]
  exact (slot_erase hp.isName name).trans (if_pos rfl)

section RemoveSeveral

variable {paths : List Pathname}

theorem Opens.foldl_without (h : t.Opens directory)
    (hpaths : ∀ p ∈ paths, ∃ name, p.IsIn directory name) :
    (paths.foldl FileTree.without t).Opens directory := by
  induction paths generalizing t with
  | nil => exact h
  | cons p paths ih =>
    obtain ⟨⟨name, hp⟩, hrest⟩ := List.forall_mem_cons.1 hpaths
    exact ih (h.without hp) hrest

theorem slot_foldl_without_eq_none (hpaths : ∀ p ∈ paths, ∃ name, p.IsIn directory name)
    (h : t.slot directory other = none) :
    (paths.foldl without t).slot directory other = none := by
  induction paths generalizing t with
  | nil => exact h
  | cons p paths ih =>
    obtain ⟨⟨name, hp⟩, hrest⟩ := List.forall_mem_cons.1 hpaths
    exact ih hrest (slot_without_eq_none hp h)

theorem slot_foldl_without_iff (hpaths : ∀ p ∈ paths, ∃ name, p.IsIn directory name)
    (husable : ∀ p ∈ paths, p.Usable) (hopens : t.Opens directory) {text : String}
    (h : t.slot directory other = some (.file text)) :
    (paths.foldl without t).slot directory other = some (.file text) ↔
      ∀ p ∈ paths, p.name ≠ other := by
  induction paths generalizing t with
  | nil => simpa using h
  | cons p paths ih =>
    obtain ⟨⟨name, hp⟩, hpaths⟩ := List.forall_mem_cons.1 hpaths
    obtain ⟨husable, hrest⟩ := List.forall_mem_cons.1 husable
    rw [List.foldl_cons, List.forall_mem_cons, hp.name_eq]
    by_cases hne : name = other
    · rw [← hne] at h ⊢
      rw [slot_foldl_without_eq_none hpaths (slot_without_self hp husable hopens h)]
      simp
    · rw [ih hpaths hrest (hopens.without hp) ((slot_without_of_ne hp (Ne.symm hne)).trans h)]
      exact ⟨fun hkept => ⟨hne, hkept⟩, And.right⟩

end RemoveSeveral

end FileTree
end LatticeKinetics
