import LatticeKinetics.Proofs.CoordinateRanges
import LatticeKinetics.Proofs.LineBreaking
import LatticeKinetics.Proofs.SourceTokens

/-! The words of generated statements, that is the parts between spaces. A word is made up of fixed
characters with at most one name or number of the model among them, so its length is bounded by that
of the name. -/

namespace LatticeKinetics.Fortran

open Text

/-! ### Names and numbers -/

theorem not_isBlank_of_isNameChar {c : Char} (h : isNameChar c = true) : isBlank c = false := by
  have hrange : (97 ≤ c.toNat ∧ c.toNat ≤ 122) ∨ (65 ≤ c.toNat ∧ c.toNat ≤ 90) ∨
      (48 ≤ c.toNat ∧ c.toNat ≤ 57) ∨ c.toNat = 95 := by
    simp only [isNameChar, isLetter, isNumeral, Bool.or_eq_true, Bool.and_eq_true,
      decide_eq_true_eq, beq_iff_eq, Char.le_def, UInt32.le_iff_toNat_le] at h
    change (((97 ≤ c.toNat ∧ c.toNat ≤ 122) ∨ (65 ≤ c.toNat ∧ c.toNat ≤ 90)) ∨
      (48 ≤ c.toNat ∧ c.toNat ≤ 57)) ∨ c = '_' at h
    rcases h with ((h | h) | h) | rfl
    · exact .inl h
    · exact .inr (.inl h)
    · exact .inr (.inr (.inl h))
    · exact .inr (.inr (.inr rfl))
  unfold isBlank
  simp only [Bool.or_eq_false_iff, Bool.and_eq_false_iff, decide_eq_false_iff_not,
    beq_eq_false_iff_ne]
  omega

theorem isNameChar_of_isIdentifier {name : String} (h : isIdentifier name = true) {c : Char}
    (hc : c ∈ name.toList) : isNameChar c = true := by
  obtain ⟨first, rest, hname, hfirst, hrest⟩ := exists_of_isIdentifier h
  rw [hname] at hc
  rcases List.mem_cons.1 hc with rfl | hc
  · exact isNameChar_of_isLetter hfirst
  · exact List.all_eq_true.1 hrest c hc

theorem solid_of_isIdentifier {name : String} (h : isIdentifier name = true) :
    Solid name.toList :=
  fun _ hc => not_isBlank_of_isNameChar (isNameChar_of_isIdentifier h hc)

theorem isWord_of_isIdentifier {name : String} (h : isIdentifier name = true) {size : Nat}
    (hshort : byteLength name.toList < size) : IsWord size name.toList := by
  obtain ⟨c, cs, hname, -, -⟩ := exists_of_isIdentifier h
  exact ⟨by simp [hname], solid_of_isIdentifier h, hshort⟩

theorem solid_toDigits (n : Nat) : Solid (Nat.toDigits 10 n) := fun _ hc =>
  not_isBlank_of_isNameChar (isNameChar_of_isNumeral (isNumeral_of_mem_toDigits hc))

theorem utf8Size_of_isNumeral {c : Char} (h : isNumeral c = true) : c.utf8Size = 1 := by
  simp only [isNumeral, Bool.and_eq_true, decide_eq_true_eq, Char.le_def,
    UInt32.le_iff_toNat_le] at h
  change 48 ≤ c.val.toNat ∧ c.val.toNat ≤ 57 at h
  rw [Char.utf8Size_eq_one_iff, UInt32.le_iff_toNat_le]
  change c.val.toNat ≤ 127
  omega

theorem byteLength_eq_length {cs : List Char} (h : ∀ c ∈ cs, c.utf8Size = 1) :
    byteLength cs = cs.length := by
  induction cs with
  | nil => rfl
  | cons c cs ih =>
    have h := List.forall_mem_cons.1 h
    rw [byteLength_cons, ih h.2, h.1, List.length_cons, Nat.add_comm]

theorem byteLength_toDigits (n : Nat) :
    byteLength (Nat.toDigits 10 n) = (Nat.toDigits 10 n).length :=
  byteLength_eq_length fun _ hc => utf8Size_of_isNumeral (isNumeral_of_mem_toDigits hc)

theorem isWord_toString {n digits : Nat} (hpos : 0 < digits) (h : n < 10 ^ digits) :
    IsWord (digits + 1) (toString n).toList := by
  rw [toList_toString]
  refine ⟨Nat.toDigits_ne_nil, solid_toDigits n, ?_⟩
  rw [byteLength_toDigits]
  exact Nat.lt_succ_of_le ((Nat.length_toDigits_le_iff (by decide) hpos).2 h)

theorem isWord_toString_of_reach {x : Int} (h : -reach ≤ x ∧ x ≤ reach) :
    IsWord 13 (toString x).toList := by
  unfold reach at h
  cases x with
  | ofNat n =>
    have hn : n < 10 ^ 11 := by
      have hle : (n : Int) ≤ 12884901888 := h.2
      omega
    exact (isWord_toString (by decide) hn).mono (by decide)
  | negSucc n =>
    have hn : n + 1 < 10 ^ 11 := by omega
    have hword := isWord_toString (by decide) hn
    rw [toList_toString] at hword
    rw [toList_toString_negSucc]
    refine ⟨List.cons_ne_nil _ _, solid_cons.2 ⟨by decide, hword.solid⟩, ?_⟩
    have := hword.short
    rw [byteLength_cons]
    change 1 + _ < 13
    omega

theorem IsWord.around {n size : Nat} {word : List Char} (h : IsWord n word)
    (before after : List Char) (hbefore : Solid before) (hafter : Solid after)
    (hle : byteLength before + n + byteLength after ≤ size) :
    IsWord size (before ++ (word ++ after)) := by
  refine ⟨by simp [h.ne_nil], ?_, ?_⟩
  · exact solid_append.2 ⟨hbefore, solid_append.2 ⟨h.solid, hafter⟩⟩
  · have := h.short
    rw [byteLength_append, byteLength_append]
    omega

theorem spaced_cons {size : Nat} {word rest : List Char} (hword : IsWord size word)
    (hrest : Spaced size rest) : Spaced size (word ++ ' ' :: rest) :=
  spaced_append_cons.2 ⟨spaced_word hword, hrest⟩

/-! ### Places -/

/-- The offset is in reach, and the names of site types have room for four more characters. -/
structure Placed (size : Nat) (place : SiteExpr) : Prop where
  constants : ∀ name ∈ place.constants, IsWord (size - 4) name.toList
  offsets : ∀ x y z slot, place = .shifted x y z slot →
    (-reach ≤ x ∧ x ≤ reach) ∧ (-reach ≤ y ∧ y ≤ reach) ∧ (-reach ≤ z ∧ z ≤ reach)

theorem Placed.mono {size larger : Nat} {place : SiteExpr} (h : Placed size place)
    (hle : size ≤ larger) : Placed larger place :=
  ⟨fun name hname => (h.constants name hname).mono (by omega), h.offsets⟩

theorem placed_here (size : Nat) : Placed size .here :=
  ⟨nofun, nofun⟩

theorem placed_ofCoordinate {size : Nat} {c : Coordinate} {origin : String} (hc : c.Within reach)
    (htarget : IsWord (size - 4) (Model.siteConstant c.layer c.site).toList)
    (horigin : IsWord (size - 4) origin.toList) : Placed size (.ofCoordinate c origin) := by
  have haxis := Coordinate.within_axis hc (by decide)
  unfold SiteExpr.ofCoordinate
  dsimp only
  split
  · exact placed_here size
  · refine ⟨?_, ?_⟩
    · intro name hname
      split at hname
      · exact absurd hname List.not_mem_nil
      · rcases List.mem_pair.1 hname with rfl | rfl
        · exact htarget
        · exact horigin
    · intro x y z slot hshifted
      obtain ⟨rfl, rfl, rfl, -⟩ := SiteExpr.shifted.inj hshifted
      exact ⟨haxis 0, haxis 1, haxis 2⟩

def shiftText (x y z : Int) (slot : SlotShift) : List Char :=
  ['+'] ++ ' ' :: (['(', '/'] ++ ((toString x).toList ++ [',']) ++
    ' ' :: ([] ++ ((toString y).toList ++ [',']) ++
      ' ' :: ([] ++ ((toString z).toList ++ [',']) ++
        ' ' :: (slot.render.toList ++ ['/', ')']))))

theorem toList_argument_shifted (x y z : Int) (slot : SlotShift) :
    (SiteExpr.shifted x y z slot).argument.toList =
      "site".toList ++ ' ' :: shiftText x y z slot := by
  have hparts : (SiteExpr.shifted x y z slot).argument =
      "site" ++ " + (/" ++ toString x ++ ", " ++ toString y ++ ", " ++ toString z ++ ", " ++
        slot.render ++ "/)" := rfl
  rw [hparts]
  simp [shiftText]

section Places

variable {size : Nat} {place : SiteExpr} {after : List Char}

theorem Placed.spaced_slot {x y z : Int} {slot : SlotShift}
    (h : Placed size (.shifted x y z slot)) (hafter : Solid after) (hle : byteLength after ≤ 2)
    (hsize : 16 ≤ size) : Spaced size (slot.render.toList ++ ('/' :: ')' :: after)) := by
  have hclosing : Solid ('/' :: ')' :: after) :=
    solid_cons.2 ⟨by decide, solid_cons.2 ⟨by decide, hafter⟩⟩
  have hlength : byteLength ('/' :: ')' :: after) = 2 + byteLength after := by
    rw [byteLength_cons, byteLength_cons, ← Nat.add_assoc]
    rfl
  cases slot with
  | same =>
    have hzero : IsWord 2 "0".toList := by decide
    exact spaced_word (hzero.around [] _ (by decide) hclosing (by
      rw [hlength]
      change 0 + 2 + _ ≤ size
      omega))
  | between target origin =>
    have htarget := h.constants target (by simp [SiteExpr.constants])
    have horigin := h.constants origin (by simp [SiteExpr.constants])
    have hminus : IsWord size ['-'] := ⟨by decide, by decide, by
      change 1 < size
      omega⟩
    have hparts : (SlotShift.between target origin).render = target ++ " - " ++ origin := rfl
    rw [hparts, String.toList_append, String.toList_append, List.append_assoc, List.append_assoc]
    apply spaced_cons (htarget.mono (by omega))
    apply spaced_cons hminus
    exact spaced_word (horigin.around [] _ (by decide) hclosing (by
      rw [hlength]
      change 0 + _ + _ ≤ size
      omega))

theorem Placed.spaced_shiftText {x y z : Int} {slot : SlotShift}
    (h : Placed size (.shifted x y z slot)) (hafter : Solid after) (hle : byteLength after ≤ 2)
    (hsize : 16 ≤ size) : Spaced size (shiftText x y z slot ++ after) := by
  obtain ⟨hx, hy, hz⟩ := h.offsets x y z slot rfl
  have hplus : IsWord 16 ['+'] := by decide
  have hfirst := (isWord_toString_of_reach hx).around ['(', '/'] [','] (by decide) (by decide)
    (show _ ≤ 16 by decide)
  have hlater {n : Int} (hn : -reach ≤ n ∧ n ≤ reach) :=
    (isWord_toString_of_reach hn).around [] [','] (by decide) (by decide) (show _ ≤ 16 by decide)
  have hparts : shiftText x y z slot ++ after =
      ['+'] ++ ' ' :: (['(', '/'] ++ ((toString x).toList ++ [',']) ++
        ' ' :: ([] ++ ((toString y).toList ++ [',']) ++
          ' ' :: ([] ++ ((toString z).toList ++ [',']) ++
            ' ' :: (slot.render.toList ++ ('/' :: ')' :: after))))) := by
    simp [shiftText]
  rw [hparts]
  apply spaced_cons (hplus.mono hsize)
  apply spaced_cons (hfirst.mono hsize)
  apply spaced_cons ((hlater hy).mono hsize)
  apply spaced_cons ((hlater hz).mono hsize)
  exact h.spaced_slot hafter hle hsize

theorem Placed.spaced_argument {before : List Char} (h : Placed size place)
    (hbefore : Solid before) (hafter : Solid after) (hle : byteLength after ≤ 2)
    (hsize : 16 ≤ size) (hroom : byteLength before + 4 + byteLength after < size) :
    Spaced size (before ++ (place.argument.toList ++ after)) := by
  have hsite : IsWord 5 "site".toList := by decide
  cases place with
  | here => exact spaced_word (hsite.around before after hbefore hafter (by omega))
  | shifted x y z slot =>
    have hword := hsite.around before [] hbefore (by decide) (show _ ≤ size by
      change _ + _ + 0 ≤ _
      omega)
    rw [toList_argument_shifted, List.append_assoc, ← List.append_assoc, List.cons_append]
    rw [List.append_nil] at hword
    exact spaced_cons hword (h.spaced_shiftText hafter hle hsize)

end Places

/-! ### Statements -/

namespace Statement

variable {size : Nat} {place : SiteExpr}

theorem spaced_addProcess {process : String} (hprocess : IsWord (size - 11) process.toList)
    (h : Placed size place) (hsize : 16 ≤ size) :
    Spaced size (addProcess process place).render.toList := by
  have hcall : IsWord 16 "call".toList := by decide
  have hname := hprocess.around "add_proc(".toList ",".toList (by decide) (by decide)
    (show _ ≤ size by
      change 9 + _ + 1 ≤ size
      omega)
  have hparts : (addProcess process place).render.toList =
      "call".toList ++ ' ' :: ("add_proc(".toList ++ (process.toList ++ ",".toList) ++
        ' ' :: ([] ++ (place.argument.toList ++ ")".toList))) := by
    have htext : (addProcess process place).render =
        "call add_proc(" ++ process ++ ", " ++ place.argument ++ ")" := rfl
    rw [htext]
    simp
  rw [hparts]
  apply spaced_cons (hcall.mono hsize)
  apply spaced_cons hname
  apply h.spaced_argument (by decide) (by decide) (by decide) hsize
  change 0 + 4 + 1 < size
  omega

theorem spaced_removeProcess {process : String} (hprocess : IsWord (size - 11) process.toList)
    (h : Placed size place) (hsize : 16 ≤ size) :
    Spaced size (removeProcess process place).render.toList := by
  have hcall : IsWord 16 "call".toList := by decide
  have hasked := hprocess.around "if(can_do(".toList ",".toList (by decide) (by decide)
    (show _ ≤ size by
      have := hprocess.short
      change 10 + _ + 1 ≤ size
      omega)
  have hremoved := hprocess.around "del_proc(".toList ",".toList (by decide) (by decide)
    (show _ ≤ size by
      have := hprocess.short
      change 9 + _ + 1 ≤ size
      omega)
  have hparts : (removeProcess process place).render.toList =
      "if(can_do(".toList ++ (process.toList ++ ",".toList) ++
        ' ' :: ([] ++ (place.argument.toList ++ "))".toList) ++
          ' ' :: ("call".toList ++ ' ' :: ("del_proc(".toList ++ (process.toList ++ ",".toList) ++
            ' ' :: ([] ++ (place.argument.toList ++ ")".toList))))) := by
    have htext : (removeProcess process place).render =
        "if(can_do(" ++ process ++ ", " ++ place.argument ++ ")) call del_proc(" ++ process ++
          ", " ++ place.argument ++ ")" := rfl
    rw [htext]
    simp
  rw [hparts]
  apply spaced_cons hasked
  refine spaced_append_cons.2 ⟨?_, ?_⟩
  · apply h.spaced_argument (by decide) (by decide) (by decide) hsize
    change 0 + 4 + 2 < size
    omega
  · apply spaced_cons (hcall.mono hsize)
    apply spaced_cons hremoved
    apply h.spaced_argument (by decide) (by decide) (by decide) hsize
    change 0 + 4 + 1 < size
    omega

theorem spaced_selectSpecies (h : Placed size place) (hsize : 24 ≤ size) :
    Spaced size (selectSpecies place).render.toList := by
  have hselect : IsWord 24 "select".toList := by decide
  have hparts : (selectSpecies place).render.toList =
      "select".toList ++ ' ' :: ("case(get_species(".toList ++
        (place.argument.toList ++ "))".toList)) := by
    have htext : (selectSpecies place).render =
        "select case(get_species(" ++ place.argument ++ "))" := rfl
    rw [htext]
    simp
  rw [hparts]
  apply spaced_cons (hselect.mono hsize)
  apply h.spaced_argument (by decide) (by decide) (by decide) (by omega)
  change 17 + 4 + 2 < size
  omega

theorem spaced_replaceSpecies {before after : String} (hbefore : IsWord (size - 1) before.toList)
    (hafter : IsWord (size - 1) after.toList) (hsize : 22 ≤ size) :
    Spaced size (replaceSpecies before after).render.toList := by
  have hcall : IsWord 22 "call".toList := by decide
  have hsite : IsWord 22 "replace_species(site,".toList := by decide
  have hclosed {name : String} (h : IsWord (size - 1) name.toList) (mark : Char)
      (hmark : Solid [mark]) (hone : mark.utf8Size = 1) :=
    h.around [] [mark] (by decide) hmark (show _ ≤ size by
      rw [byteLength_cons, hone]
      change 0 + _ + (1 + 0) ≤ size
      omega)
  have hparts : (replaceSpecies before after).render.toList =
      "call".toList ++ ' ' :: ("replace_species(site,".toList ++
        ' ' :: ([] ++ (before.toList ++ [',']) ++ ' ' :: ([] ++ (after.toList ++ [')'])))) := by
    have htext : (replaceSpecies before after).render =
        "call replace_species(site, " ++ before ++ ", " ++ after ++ ")" := rfl
    rw [htext]
    simp
  rw [hparts]
  apply spaced_cons (hcall.mono hsize)
  apply spaced_cons (hsite.mono hsize)
  apply spaced_cons (hclosed hbefore ',' (by decide) (by decide))
  exact spaced_word (hclosed hafter ')' (by decide) (by decide))

def conditionText (term : SiteExpr × String) : String :=
  s!"get_species({term.1.argument}) == {term.2}"

theorem spaced_conditionText {term : SiteExpr × String} (h : Placed size term.1)
    (hspecies : IsWord size term.2.toList) (hsize : 18 ≤ size) :
    Spaced size (conditionText term).toList := by
  have hequal : IsWord 18 "==".toList := by decide
  have hparts : (conditionText term).toList =
      "get_species(".toList ++ (term.1.argument.toList ++ ")".toList) ++
        ' ' :: ("==".toList ++ ' ' :: term.2.toList) := by
    have htext : conditionText term = "get_species(" ++ term.1.argument ++ ") == " ++ term.2 := rfl
    rw [htext]
    simp
  rw [hparts]
  refine spaced_append_cons.2 ⟨?_, spaced_cons (hequal.mono hsize) (spaced_word hspecies)⟩
  apply h.spaced_argument (by decide) (by decide) (by decide) (by omega)
  change 12 + 4 + 1 < size
  omega

theorem spaced_intercalate {joint : List Char} (hjoint : IsWord size joint)
    {parts : List (List Char)} (hne : parts ≠ []) (h : ∀ part ∈ parts, Spaced size part) :
    Spaced size ((' ' :: joint ++ [' ']).intercalate parts) := by
  induction parts with
  | nil => contradiction
  | cons part parts ih =>
    obtain ⟨hpart, hparts⟩ := List.forall_mem_cons.1 h
    cases parts with
    | nil => rwa [List.intercalate_singleton]
    | cons next parts =>
      rw [List.intercalate_cons_cons, List.append_assoc, List.cons_append, List.cons_append,
        List.append_assoc, List.singleton_append, ← List.cons_append]
      exact spaced_append_cons.2 ⟨hpart, spaced_cons hjoint (ih (List.cons_ne_nil _ _) hparts)⟩

variable {width level : Nat}

theorem fits_call {procedure : String} (hprocedure : width * level +
      byteLength procedure.toList + 11 ≤ 98)
    (h : Placed (96 - width * (level + 1)) place) (hsize : 16 ≤ 96 - width * (level + 1)) :
    (Content.statement (call procedure place).render).Fits width level := by
  have hhead : byteLength ("call ".toList ++ (procedure.toList ++ "(site".toList)) =
      byteLength procedure.toList + 10 := by
    rw [byteLength_append, byteLength_append]
    change 5 + (_ + 5) = _
    omega
  cases place with
  | here =>
    have hparts : (call procedure .here).render.toList =
        "call ".toList ++ (procedure.toList ++ "(site".toList) ++ ")".toList := by
      have htext : (call procedure .here).render = "call " ++ procedure ++ "(" ++ "site" ++ ")" :=
        rfl
      rw [htext]
      simp
    apply fits_of_line
    rw [hparts, byteLength_append, hhead]
    change _ + (_ + 1) ≤ 98
    omega
  | shifted x y z slot =>
    have hparts : (call procedure (.shifted x y z slot)).render.toList =
        "call ".toList ++ (procedure.toList ++ "(site".toList) ++
          ' ' :: (shiftText x y z slot ++ ")".toList) := by
      have htext : (call procedure (.shifted x y z slot)).render =
          "call " ++ procedure ++ "(" ++ (SiteExpr.shifted x y z slot).argument ++ ")" := rfl
      rw [htext]
      simp [toList_argument_shifted]
    apply fits_of_first_words hparts (by simp)
    · rw [hhead]
      omega
    · exact h.spaced_shiftText (by decide) (by decide) hsize

/-- The name of the result stands on the first line, so that it needs no room on others. -/
theorem fits_verdict {result : String} {terms : List (SiteExpr × String)}
    (hresult : width * level + byteLength result.toList + 2 < 98) (hne : terms ≠ [])
    (h : ∀ term ∈ terms, Placed (96 - width * (level + 1)) term.1 ∧
      IsWord (96 - width * (level + 1)) term.2.toList)
    (hsize : 18 ≤ 96 - width * (level + 1)) :
    (Content.statement (verdict result terms).render).Fits width level := by
  have hand : IsWord 18 ".and.".toList := by decide
  have hparts : (verdict result terms).render.toList =
      result.toList ++ " =".toList ++ ' ' :: (' ' :: ".and.".toList ++ [' ']).intercalate
        ((terms.map conditionText).map String.toList) := by
    have htext : (verdict result terms).render =
        result ++ " = " ++ " .and. ".intercalate (terms.map conditionText) := rfl
    rw [htext, String.toList_append, String.toList_append, String.toList_intercalate,
      List.append_assoc, List.append_assoc]
    rfl
  apply fits_of_first_words hparts (by simp)
  · rw [byteLength_append]
    change _ + (_ + 2) < 98
    omega
  · apply spaced_intercalate (hand.mono hsize) (by simpa using hne)
    intro part hpart
    rw [List.map_map] at hpart
    obtain ⟨term, hterm, rfl⟩ := List.mem_map.1 hpart
    exact spaced_conditionText (h term hterm).1 (h term hterm).2 hsize

theorem fits_case {constant : String}
    (h : width * level + byteLength constant.toList + 6 ≤ 98) :
    (Content.statement (case constant).render).Fits width level := by
  have htext : (case constant).render = "case(" ++ constant ++ ")" := rfl
  apply fits_of_line
  rw [htext, String.toList_append, String.toList_append, byteLength_append, byteLength_append]
  change _ + (5 + _ + 1) ≤ 98
  omega

end Statement

theorem spaced_parameter {size : Nat} {p : Parameter} (hname : IsWord size p.name.toList)
    (hvalue : IsWord size p.value.toList) (hsize : 20 ≤ size) :
    Spaced size p.render.toList := by
  have htype : IsWord 20 "integer(kind=iint),".toList := by decide
  have hparameter : IsWord 20 "parameter".toList := by decide
  have hcolons : IsWord 20 "::".toList := by decide
  have hequal : IsWord 20 "=".toList := by decide
  have hparts : p.render.toList = "integer(kind=iint),".toList ++
      ' ' :: ("parameter".toList ++ ' ' :: ("::".toList ++ ' ' :: (p.name.toList ++
        ' ' :: ("=".toList ++ ' ' :: p.value.toList)))) := by
    have htext : p.render = "integer(kind=iint), parameter :: " ++ p.name ++ " = " ++ p.value := rfl
    rw [htext]
    simp
  rw [hparts]
  apply spaced_cons (htype.mono hsize)
  apply spaced_cons (hparameter.mono hsize)
  apply spaced_cons (hcolons.mono hsize)
  apply spaced_cons hname
  exact spaced_cons (hequal.mono hsize) (spaced_word hvalue)

end LatticeKinetics.Fortran
