import LatticeKinetics.Proofs.LineBreaking

/-! The lines of a statement put together again. Whatever the statement says, nothing but blanks at
its end is lost when it is broken, and only its last line can be too long. -/

namespace LatticeKinetics.Fortran

open Text

/-- What the lines of a statement say: each without the lead in front of it, and all but the last
without the ampersand at their end. There is no result where a lead or an ampersand is missing. -/
def pieces? (lead continued : List Char) : List (List Char) → Option (List (List Char))
  | [] => none
  | [line] => do
    let piece ← line.dropPrefix? lead
    pure [piece]
  | line :: next :: rest => do
    let line ← line.dropPrefix? lead
    let piece ← line.dropSuffix? [' ', '&']
    let pieces ← pieces? continued continued (next :: rest)
    pure (piece :: pieces)

/-- The pieces of the lines with one space between two of them. The lines after the first stand one
level deeper, behind an ampersand. -/
def rejoin? (width level : Nat) (lines : List (List Char)) : Option (List Char) :=
  let lead := spaces (width * level)
  (pieces? lead (lead ++ spaces width ++ ['&', ' ']) lines).map [' '].intercalate

section Breaking

variable {lead continued : List Char}

theorem dropPrefix?_append (as bs : List Char) : (as ++ bs).dropPrefix? as = some bs :=
  List.dropPrefix?_append_of_beq bs (beq_self_eq_true as)

theorem dropSuffix?_append (as bs : List Char) : (as ++ bs).dropSuffix? bs = some as :=
  List.dropSuffix?_eq_some_iff.2 ⟨bs, rfl, beq_self_eq_true bs⟩

theorem breakStatement_ne_nil (lead continued cs : List Char) :
    breakStatement lead continued cs ≠ [] := by
  rw [breakStatement]
  split <;> exact List.cons_ne_nil _ _

theorem exists_pieces (lead continued cs : List Char) :
    ∃ first others, pieces? lead continued (breakStatement lead continued cs) =
        some (first :: others) ∧ [' '].intercalate (first :: others) = cs := by
  fun_induction breakStatement lead continued cs with
  | case1 lead cs h =>
    refine ⟨cs, [], ?_, List.intercalate_singleton⟩
    rw [pieces?, dropPrefix?_append]
    rfl
  | case2 lead cs i h ih =>
    obtain ⟨as, bs, rfl, rfl, -⟩ := breakAt?_eq_some h
    obtain ⟨first, others, hpieces, hjoined⟩ := ih
    obtain ⟨next, rest, hlines⟩ := List.exists_cons_of_ne_nil (breakStatement_ne_nil continued
      continued ((as ++ ' ' :: bs).drop (as.length + 1)))
    rw [List.take_left, hlines, pieces?, List.append_assoc, dropPrefix?_append]
    rw [hlines] at hpieces
    refine ⟨as, first :: others, ?_, ?_⟩
    · simp only [Option.bind_eq_bind, Option.bind_some, dropSuffix?_append, hpieces,
        Option.pure_def]
    · rw [List.intercalate_cons_cons, hjoined]
      simp

theorem dropLast_fits (hlead : byteLength lead = lead.length)
    (hcontinued : byteLength continued = continued.length) (cs : List Char) :
    ∀ line ∈ (breakStatement lead continued cs).dropLast, byteLength line ≤ maxLine := by
  fun_induction breakStatement lead continued cs with
  | case1 lead cs h => simp
  | case2 lead cs i h ih =>
    obtain ⟨as, bs, rfl, rfl, has⟩ := breakAt?_eq_some h
    rw [List.dropLast_cons_of_ne_nil (breakStatement_ne_nil _ _ _), List.forall_mem_cons,
      List.take_left]
    exact ⟨byteLength_broken_le hlead has, ih hcontinued⟩

end Breaking

theorem spaced_of_words {size : Nat} {words : List String} (hne : words ≠ [])
    (h : ∀ word ∈ words, IsWord size word.toList) : Spaced size (" ".intercalate words).toList := by
  have hsplit : (" ".intercalate words).toList.splitOn ' ' = words.map String.toList := by
    rw [String.toList_intercalate]
    apply List.splitOn_intercalate
    · simp only [List.forall_mem_map]
      exact fun word hword => (h word hword).space_not_mem
    · simpa using hne
  unfold Spaced
  rw [hsplit, List.forall_mem_map]
  exact h

/-- The lines are those of the statement: they are written one after the other, put together again
they give its text without the blanks at the end, and only the last one can be too long. That one
fits as well when the text is made of words which have room on a continued line. -/
structure Wraps (width level : Nat) (text : String) (lines : List (List Char)) : Prop where
  written : linesOf (Code.render width [⟨level, .statement text⟩]) = lines ++ [[]]
  rejoined : rejoin? width level lines = some (trimRight text.toList)
  broken : ∀ line ∈ lines.dropLast, byteLength line ≤ maxLine
  words : ∀ words : List String, words ≠ [] → text = " ".intercalate words →
    (∀ word ∈ words, IsWord (96 - width * (level + 1)) word.toList) →
      ∀ line ∈ lines, byteLength line ≤ maxLine

/-- However deep a statement stands, and whatever it says on one line, it is broken without loss. -/
theorem statement_wraps_without_loss (width level : Nat) (text : String)
    (h : '\n' ∉ text.toList) :
    Wraps width level text (Line.physical width ⟨level, .statement text⟩) := by
  refine ⟨?_, ?_, dropLast_fits byteLength_lead byteLength_continued _, ?_⟩
  · have hlines : ∀ line ∈ Line.physical width ⟨level, .statement text⟩,
        line.splitOn '\n' = [line] := by
      intro line hline
      apply List.splitOn_eq_singleton
      intro hend
      have hsource := Line.mem_of_mem_physical (by simp [Line.Plain]) hline hend
      simpa using hsource.resolve_right fun hmem => h (trimRight_subset _ hmem)
    rw [linesOf_render, List.flatMap_singleton, List.flatMap_congr hlines, List.flatMap_singleton']
  · obtain ⟨first, others, hpieces, hjoined⟩ := exists_pieces (spaces (width * level))
      (spaces (width * level) ++ spaces width ++ ['&', ' ']) (trimRight text.toList)
    unfold rejoin? Line.physical
    dsimp only
    rw [hpieces, Option.map_some, hjoined]
  · intro words hne htext hwords
    exact fits_of_words (htext ▸ spaced_of_words hne hwords)

/-- A statement that is broken between two spaces; its room ends in the middle of a character. -/
theorem double_space_wraps_without_loss :
    ∃ text : String, '\n' ∉ text.toList ∧
      text.toList = List.replicate 31 'b' ++ ' ' :: ' ' :: (List.replicate 40 'é' ++ [' ']) ∧
      Wraps 4 1 text [spaces 4 ++ List.replicate 31 'b' ++ [' ', ' ', '&'],
        spaces 8 ++ ['&', ' '] ++ List.replicate 40 'é'] := by
  let text := String.ofList
    (List.replicate 31 'b' ++ ' ' :: ' ' :: (List.replicate 40 'é' ++ [' ']))
  have hend : '\n' ∉ text.toList := by decide +kernel
  have htrim : trimRight text.toList =
      (List.replicate 31 'b' ++ [' ']) ++ ' ' :: List.replicate 40 'é' := by
    decide +kernel
  have hbreak : breakAt? (roomAfter (spaces 4))
      ((List.replicate 31 'b' ++ [' ']) ++ ' ' :: List.replicate 40 'é') =
        some (List.replicate 31 'b' ++ [' ']).length := by
    decide +kernel
  have hphysical : Line.physical 4 ⟨1, .statement text⟩ =
      [spaces 4 ++ List.replicate 31 'b' ++ [' ', ' ', '&'],
        spaces 8 ++ ['&', ' '] ++ List.replicate 40 'é'] := by
    change breakStatement (spaces 4) _ _ = _
    rw [htrim, breakStatement_of_breakAt? hbreak, breakStatement_of_room (by decide +kernel)]
    rfl
  refine ⟨text, hend, String.toList_ofList, ?_⟩
  rw [← hphysical]
  exact statement_wraps_without_loss 4 1 text hend

end LatticeKinetics.Fortran
