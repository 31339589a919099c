import Mathlib.Data.List.Induction
import LatticeKinetics.Proofs.DeliverySteps

/-! Trees in which everything lies in a directory. There, what is done to a file changes the file's
own place and no other, since nothing lies below a file; so each operation on the files of one
directory comes down to an equation for what is at each place afterwards. -/

namespace LatticeKinetics

namespace FileTree

variable {t t' : FileTree} {directory : List String} {p q : Pathname} {name other text : String}

/-- Everything lies in a directory. -/
def Grounded (t : FileTree) : Prop :=
  ∀ place name, t.entryAt (place ++ [name]) ≠ none → t.entryAt place = some .directory

theorem grounded_of_entries (h : ∀ e ∈ t.entries, t.entryAt e.1.dropLast = some .directory) :
    t.Grounded := by
  intro place name hentry
  by_cases hnamed : Named (place ++ [name])
  · rw [entryAt_of_named hnamed] at hentry
    obtain ⟨entry, hlookup⟩ := Option.ne_none_iff_exists'.1 hentry
    obtain ⟨before, after, hsplit, -⟩ := List.lookup_eq_some_iff.1 hlookup
    have habove := h (place ++ [name], entry) (by simp [hsplit])
    rwa [List.dropLast_concat] at habove
  · apply entryAt_of_not_named
    rintro ⟨-, hup⟩
    apply hnamed
    constructor
    · intro htop
      obtain ⟨rfl, -⟩ := List.append_eq_singleton_iff.1 htop |>.resolve_right (by simp)
      simp [Place.isUpward] at hup
    · unfold Place.isUpward at hup ⊢
      rw [List.all_append, hup, Bool.false_and]

theorem Grounded.entryAt_below (h : t.Grounded) {place rest : Place}
    (hplace : t.entryAt place ≠ some .directory) (hrest : rest ≠ []) :
    t.entryAt (place ++ rest) = none := by
  induction rest using List.reverseRecOn with
  | nil => exact absurd rfl hrest
  | append_singleton rest name ih =>
    by_contra hentry
    rw [← List.append_assoc] at hentry
    have habove := h _ _ hentry
    cases rest with
    | nil => exact hplace (by simpa using habove)
    | cons first rest => simp [ih (by simp)] at habove

theorem IsName.named_append (h : IsName name) (place rest : Place) :
    Named (place ++ [name] ++ rest) := by
  have hmem : name ∈ place ++ [name] ++ rest := by simp
  constructor
  · intro htop
    rw [htop] at hmem
    exact h.relative (by simpa [Place.top] using hmem)
  · apply Bool.eq_false_iff.2
    intro hup
    exact h.downward (by simpa using List.all_eq_true.1 hup name hmem)

theorem Grounded.entryAt_move (h : t.Grounded) {place : Place} (hname : IsName name)
    (hother : IsName other) (hne : other ≠ name)
    (hsource : t.entryAt (place ++ [name]) ≠ some .directory)
    (htarget : t.entryAt (place ++ [other]) ≠ some .directory) (q : Place) :
    (t.move (place ++ [name]) (place ++ [other])).entryAt q =
      if q = place ++ [other] then t.entryAt (place ++ [name])
      else if q = place ++ [name] then none else t.entryAt q := by
  have happart : ¬(place ++ [other] <+: q ∧ place ++ [name] <+: q) := by
    rintro ⟨hto, hfrom⟩
    have hpre := List.prefix_of_prefix_length_le hto hfrom (by simp)
    exact hne (by simpa using hpre.eq_of_length (by simp))
  split
  · rename_i hq
    rw [hq] at happart ⊢
    exact entryAt_move_target (hname.named _) (hother.named _)
      fun hpre => happart ⟨List.prefix_refl _, hpre⟩
  · rename_i hto
    split
    · rename_i hq
      rw [hq] at happart ⊢
      exact entryAt_move_source (hname.named _) fun hpre => happart ⟨hpre, List.prefix_refl _⟩
    · rename_i hfrom
      by_cases hpre : place ++ [name] <+: q
      · have hnot : ¬place ++ [other] <+: q := fun hpre' => happart ⟨hpre', hpre⟩
        obtain ⟨rest, rfl⟩ := hpre
        have hrest : rest ≠ [] := by
          rintro rfl
          simp at hfrom
        rw [h.entryAt_below hsource hrest]
        exact entryAt_move_below_source (hname.named_append _ _) (List.prefix_append _ _) hnot
      · by_cases hpre' : place ++ [other] <+: q
        · obtain ⟨rest, rfl⟩ := hpre'
          have hrest : rest ≠ [] := by
            rintro rfl
            simp at hto
          have hbelow := h.entryAt_below htarget hrest
          rw [hbelow]
          exact entryAt_move_below_target (hname.named_append _ _) (hother.named_append _ _)
            (h.entryAt_below hsource hrest) hbelow
        · exact entryAt_move_of_not_isPrefix hpre hpre'

section Grown

theorem prefix_follow {place q : Place} {segment : String} (h : place <+: follow q segment) :
    place = follow q segment ∨ place <+: q := by
  have hdown : ∀ name, place <+: q ++ [name] → place = q ++ [name] ∨ place <+: q :=
    fun name => List.prefix_concat_iff.1
  unfold follow at h ⊢
  split
  · rename_i hidle
    rw [if_pos hidle] at h
    exact .inr h
  · rename_i hidle
    rw [if_neg hidle] at h
    split
    · rename_i hup
      rw [if_pos hup] at h
      unfold Place.parent at h ⊢
      split
      · rename_i htop
        rw [if_pos htop] at h
        exact .inr (htop ▸ h)
      · rename_i htop
        rw [if_neg htop] at h
        split
        · rename_i hupward
          rw [if_pos hupward] at h
          exact hdown _ h
        · rename_i hupward
          rw [if_neg hupward] at h
          exact .inr (h.trans (List.dropLast_prefix q))
    · rename_i hup
      rw [if_neg hup] at h
      exact hdown _ h

theorem directory_of_isPrefix_visited {start : Place} {segments : List String}
    (hstart : ∀ place, place <+: start → t.entryAt place = some .directory)
    (hvisited : ∀ q ∈ visited start segments, t.entryAt q = some .directory) :
    ∀ q ∈ visited start segments, ∀ place, place <+: q → t.entryAt place = some .directory := by
  induction segments generalizing start with
  | nil => simpa [visited] using hstart
  | cons segment segments ih =>
    unfold visited at hvisited ⊢
    obtain ⟨-, hrest⟩ := List.forall_mem_cons.1 hvisited
    refine List.forall_mem_cons.2 ⟨hstart, ih ?_ hrest⟩
    intro place hplace
    rcases prefix_follow hplace with rfl | hpre
    · apply hrest
      cases segments <;> simp [visited]
    · exact hstart place hpre

theorem Opens.directory_of_isPrefix (h : t.Opens directory) {q place : Place}
    (hq : q ∈ visited (start directory) directory) (hplace : place <+: q) :
    t.entryAt place = some .directory := by
  refine directory_of_isPrefix_visited ?_ h.directories q hq place hplace
  intro above habove
  apply entryAt_of_not_named
  rintro ⟨htop, hup⟩
  unfold start at habove
  split at habove
  · rcases List.prefix_concat_iff.1 (show above <+: [] ++ ["/"] from habove) with heq | hnil
    · exact htop heq
    · simp [List.prefix_nil.1 hnil, Place.isUpward] at hup
  · simp [List.prefix_nil.1 habove, Place.isUpward] at hup

theorem Grounded.grown (h : t.Grounded)
    (hgrown : Grown (visited (start directory) directory) t t') (hopens : t'.Opens directory) :
    t'.Grounded := by
  intro place name hentry
  rcases hgrown (place ++ [name]) with hsame | ⟨-, -, hvisited⟩
  · rw [hsame] at hentry
    have hdirectory := h place name hentry
    rcases hgrown place with hplace | ⟨hnone, -, -⟩
    · rw [hplace, hdirectory]
    · rw [hnone] at hdirectory
      contradiction
  · exact hopens.directory_of_isPrefix hvisited (List.prefix_append _ _)

theorem Grown.entryAt_of_opens (h : Grown (visited (start directory) directory) t t')
    (hopens : t.Opens directory) (q : Place) : t'.entryAt q = t.entryAt q := by
  rcases h q with hsame | ⟨hnone, -, hvisited⟩
  · exact hsame
  · rw [hopens.directories q hvisited] at hnone
    contradiction

end Grown

structure Firm (t : FileTree) (directory : List String) : Prop where
  opens : t.Opens directory
  grounded : t.Grounded

namespace Firm

theorem entryAt_home (h : t.Firm directory) : t.entryAt (home directory) = some .directory :=
  h.opens.directories _ (foldl_follow_mem_visited ..)

theorem congr (h : t.Firm directory) (names : List String)
    (hnames : ∀ n ∈ names, IsName n ∧ t.slot directory n ≠ some .directory)
    (hsame : ∀ q, (∀ n ∈ names, q ≠ home directory ++ [n]) → t'.entryAt q = t.entryAt q) :
    t'.Firm directory := by
  constructor
  · refine h.opens.congr (names.map (home directory ++ [·])) ?_ ?_
    · rintro _ hq
      obtain ⟨n, hn, rfl⟩ := List.mem_map.1 hq
      exact ⟨⟨_, n, (hnames n hn).1, rfl⟩, (hnames n hn).2⟩
    · intro q hq
      apply hsame
      rintro n hn rfl
      exact hq _ (List.mem_map_of_mem hn) (List.prefix_refl _)
  · intro place x hentry
    by_cases hchanged : ∃ n ∈ names, place ++ [x] = home directory ++ [n]
    · obtain ⟨n, hn, heq⟩ := hchanged
      obtain rfl : place = home directory := (List.append_inj' heq rfl).1
      rw [hsame _ (by simp), h.entryAt_home]
    · rw [hsame _ fun n hn heq => hchanged ⟨n, hn, heq⟩] at hentry
      have hdirectory := h.grounded place x hentry
      rw [hsame, hdirectory]
      rintro n hn rfl
      exact (hnames n hn).2 hdirectory

theorem write (h : t.Firm directory) (hp : p.IsIn directory name)
    (hwrite : t.write p text = .ok t') :
    p.Usable ∧ t.slot directory name ≠ some .directory ∧ t'.Firm directory ∧
      ∀ q, t'.entryAt q =
        if q = home directory ++ [name] then some (.file text) else t.entryAt q := by
  obtain ⟨-, hslot, rfl⟩ := write_eq_ok hp hwrite
  have hentry : ∀ q, (t.insert (home directory ++ [name]) (.file text)).entryAt q =
      if q = home directory ++ [name] then some (.file text) else t.entryAt q :=
    entryAt_insert (hp.isName.named _) _
  refine ⟨usable_of_write hp hwrite, hslot, ?_, hentry⟩
  refine h.congr [name] (List.forall_mem_singleton.2 ⟨hp.isName, hslot⟩) ?_
  intro q hq
  rw [hentry, if_neg (hq name (by simp))]

theorem move (h : t.Firm directory) (hname : IsName name) (hother : IsName other)
    (hne : other ≠ name) (hfile : t.slot directory name = some (.file text))
    (hslot : t.slot directory other ≠ some .directory) :
    (t.move (home directory ++ [name]) (home directory ++ [other])).Firm directory ∧
      ∀ q, (t.move (home directory ++ [name]) (home directory ++ [other])).entryAt q =
        if q = home directory ++ [other] then some (.file text)
        else if q = home directory ++ [name] then none else t.entryAt q := by
  have hsource : t.slot directory name ≠ some .directory := by simp [hfile]
  have hentry := h.grounded.entryAt_move hname hother hne hsource hslot
  rw [show t.entryAt (home directory ++ [name]) = some (.file text) from hfile] at hentry
  refine ⟨h.congr [name, other] (by simp [hname, hother, hsource, hslot]) ?_, hentry⟩
  intro q hq
  rw [hentry, if_neg (hq other (by simp)), if_neg (hq name (by simp))]

theorem without (h : t.Firm directory) (hp : p.IsIn directory name) (husable : p.Usable)
    (hfile : t.slot directory name = some (.file text)) :
    (t.without p).Firm directory ∧ ∀ q, (t.without p).entryAt q =
      if q = home directory ++ [name] then none else t.entryAt q := by
  have hremove := (remove_eq_ok_iff hp).2 ⟨husable, h.opens, ⟨text, hfile⟩, rfl⟩
  unfold FileTree.without
  rw [hremove]
  have hentry := entryAt_erase (t := t) (hp.isName.named (home directory))
  refine ⟨h.congr [name] (by simp [hp.isName, hfile]) ?_, hentry⟩
  intro q hq
  exact (hentry q).trans (if_neg (hq name (by simp)))

end Firm

def IsFile (entry : Option Entry) : Prop :=
  ∃ text, entry = some (.file text)

instance (entry : Option Entry) : Decidable (IsFile entry) :=
  match entry with
  | some (.file text) => .isTrue ⟨text, rfl⟩
  | some .directory => .isFalse nofun
  | none => .isFalse nofun

theorem not_isFile_none : ¬IsFile none := by
  simp [IsFile]

theorem eq_none_of_not_file {entry : Option Entry} (hfile : ¬IsFile entry)
    (hdirectory : entry ≠ some .directory) : entry = none := by
  match entry with
  | none => rfl
  | some (.file text) => exact absurd ⟨text, rfl⟩ hfile
  | some .directory => exact absurd rfl hdirectory

theorem without_of_not_file (hp : p.IsIn directory name) (h : ¬IsFile (t.slot directory name)) :
    t.without p = t := by
  unfold without
  cases hremove : t.remove p with
  | error fault => rfl
  | ok t' => exact absurd ((remove_eq_ok_iff hp).1 hremove).2.2.1 h

theorem without_of_not_opens (hp : p.IsIn directory name) (h : ¬t.Opens directory) :
    t.without p = t := by
  unfold without
  cases hremove : t.remove p with
  | error fault => rfl
  | ok t' => exact absurd ((remove_eq_ok_iff hp).1 hremove).2.1 h

theorem Firm.foldl_without {ns : List String} {path : String → Pathname} {label : String → String}
    (h : t.Firm directory) (hin : ∀ n ∈ ns, (path n).IsIn directory (label n))
    (husable : ∀ n ∈ ns, IsFile (t.slot directory (label n)) → (path n).Usable) :
    ((ns.map path).foldl FileTree.without t).Firm directory ∧
      (∀ n ∈ ns, t.slot directory (label n) ≠ some .directory →
        ((ns.map path).foldl FileTree.without t).slot directory (label n) = none) ∧
      ∀ q, (∀ n ∈ ns, IsFile (t.slot directory (label n)) → q ≠ home directory ++ [label n]) →
        ((ns.map path).foldl FileTree.without t).entryAt q = t.entryAt q := by
  induction ns generalizing t with
  | nil => exact ⟨h, by simp, fun _ _ => rfl⟩
  | cons n ns ih =>
    obtain ⟨hn, hin⟩ := List.forall_mem_cons.1 hin
    obtain ⟨husable, hrest⟩ := List.forall_mem_cons.1 husable
    rw [List.map_cons, List.foldl_cons]
    -- After the first removal its own name holds no file, and all else is as before.
    have hfirst : (t.without (path n)).Firm directory ∧
        ¬IsFile ((t.without (path n)).slot directory (label n)) ∧
        ∀ q, (IsFile (t.slot directory (label n)) → q ≠ home directory ++ [label n]) →
          (t.without (path n)).entryAt q = t.entryAt q := by
      by_cases hfile : IsFile (t.slot directory (label n))
      · obtain ⟨text, htext⟩ := hfile
        obtain ⟨hfirm, hview⟩ := h.without hn (husable ⟨text, htext⟩) htext
        refine ⟨hfirm, ?_, fun q hq => (hview q).trans (if_neg (hq ⟨text, htext⟩))⟩
        rw [slot, hview, if_pos rfl]
        exact not_isFile_none
      · rw [without_of_not_file hn hfile]
        exact ⟨h, hfile, fun _ _ => rfl⟩
    obtain ⟨hfirm, hgone, hsame⟩ := hfirst
    have hslot : ∀ other, other ≠ label n →
        (t.without (path n)).slot directory other = t.slot directory other :=
      fun other hne => slot_without_of_ne hn hne
    have hfiles : ∀ other, IsFile ((t.without (path n)).slot directory other) →
        IsFile (t.slot directory other) := by
      intro other hother
      have hne : other ≠ label n := by
        rintro rfl
        exact hgone hother
      exact hslot other hne ▸ hother
    obtain ⟨hfinal, hnone, hkept⟩ :=
      ih hfirm hin fun m hm hfile => hrest m hm (hfiles _ hfile)
    have hcleared : ∀ other, t.slot directory other ≠ some .directory →
        (t.without (path n)).slot directory other ≠ some .directory := by
      intro other hdirectory
      by_cases hne : other = label n
      · subst hne
        rcases without_eq (t := t) hn with heq | ⟨-, heq⟩
        · rwa [heq]
        · simp [heq, slot_erase hn.isName]
      · rwa [hslot other hne]
    refine ⟨hfinal, List.forall_mem_cons.2 ⟨?_, ?_⟩, ?_⟩
    · intro hdirectory
      refine (hkept _ ?_).trans (eq_none_of_not_file hgone (hcleared _ hdirectory))
      intro m _ hfile heq
      exact hgone (by simpa [slot, heq] using hfile)
    · exact fun m hm hdirectory => hnone m hm (hcleared _ hdirectory)
    · intro q hq
      obtain ⟨hhead, htail⟩ := List.forall_mem_cons.1 hq
      rw [hkept q fun m hm hfile => htail m hm (hfiles _ hfile), hsame q hhead]

theorem rename_of_file (hp : p.IsIn directory name) (hq : q.IsIn directory other)
    (hne : other ≠ name) (husable : p.Usable ∧ q.Usable) (hopens : t.Opens directory)
    (hfile : t.slot directory name = some (.file text))
    (hslot : t.slot directory other ≠ some .directory) :
    t.rename p q = .ok (t.move (home directory ++ [name]) (home directory ++ [other])) := by
  have hfind := (find_eq_ok_iff hp).2 ⟨husable.1, hopens, rfl, hfile⟩
  have hlocate := (locate_eq_ok_iff hq).2 ⟨husable.2, hopens, rfl⟩
  have hplaces : home directory ++ [other] ≠ home directory ++ [name] := by simpa using hne
  unfold rename
  rw [hfind]
  simp only [bind, Except.bind, hlocate]
  rw [if_neg hplaces]
  split
  · rename_i hentry
    exact absurd hentry hslot
  · contradiction
  · contradiction
  · rfl

end FileTree
end LatticeKinetics
