import LatticeKinetics.Fortran.Procedure

/-! Generated source text read word by word. A word is a run of letters, digits and underscores that
is as long as can be; every other character stands for itself, and blanks only keep words apart. A
text that starts or ends with such a character is read apart from what it is joined to. -/

namespace LatticeKinetics.Fortran

open Text

inductive Token where
  | word (text : String)
  | sign (c : Char)
deriving DecidableEq, Repr

/-- The statements of a body as they are written, each on a line that is not broken yet. -/
def Body.lines (body : Body) : List String :=
  body.map (·.statement.render)

namespace Token

def ofWord (cs : List Char) : List Token :=
  if cs.isEmpty then [] else [word (String.ofList cs)]

def ofSign (c : Char) : List Token :=
  if isBlank c then [] else [sign c]

def scan (start : List Char) : List Char → List Token
  | [] => ofWord start
  | c :: cs =>
    if isNameChar c then scan (start ++ [c]) cs else ofWord start ++ (ofSign c ++ scan [] cs)

end Token

def tokens (text : String) : List Token :=
  Token.scan [] text.toList

namespace Token

theorem scan_sign {c : Char} (hc : isNameChar c = false) (start cs : List Char) :
    scan start (c :: cs) = ofWord start ++ (ofSign c ++ scan [] cs) := by
  simp [scan, hc]

theorem scan_append_sign {c : Char} (hc : isNameChar c = false) (start cs ds : List Char) :
    scan start (cs ++ c :: ds) = scan start cs ++ (ofSign c ++ scan [] ds) := by
  induction cs generalizing start with
  | nil => rw [List.nil_append, scan_sign hc, scan]
  | cons d cs ih =>
    rw [List.cons_append, scan, scan]
    split
    · exact ih _
    · rw [ih, List.append_assoc, List.append_assoc]

theorem scan_word {cs : List Char} (h : cs.all isNameChar = true) (start : List Char) :
    scan start cs = ofWord (start ++ cs) := by
  induction cs generalizing start with
  | nil => rw [scan, List.append_nil]
  | cons c cs ih =>
    rw [List.all_cons, Bool.and_eq_true] at h
    rw [scan, if_pos h.1, ih h.2, List.append_assoc, List.singleton_append]

end Token

open Token

def opensApart (text : String) : Bool :=
  text.toList.head?.any (!isNameChar ·)

def closesApart (text : String) : Bool :=
  text.toList.getLast?.any (!isNameChar ·)

theorem exists_of_opensApart {text : String} (h : opensApart text = true) :
    ∃ c cs, text.toList = c :: cs ∧ isNameChar c = false := by
  unfold opensApart at h
  rw [Option.any_eq_true] at h
  obtain ⟨c, hhead, hc⟩ := h
  obtain ⟨cs, hcs⟩ := List.head?_eq_some_iff.1 hhead
  exact ⟨c, cs, hcs, by simpa using hc⟩

theorem exists_of_closesApart {text : String} (h : closesApart text = true) :
    ∃ cs c, text.toList = cs ++ [c] ∧ isNameChar c = false := by
  unfold closesApart at h
  rw [Option.any_eq_true] at h
  obtain ⟨c, hlast, hc⟩ := h
  obtain ⟨cs, hcs⟩ := List.getLast?_eq_some_iff.1 hlast
  exact ⟨cs, c, hcs, by simpa using hc⟩

theorem opensApart_append {a : String} (h : opensApart a = true) (b : String) :
    opensApart (a ++ b) = true := by
  obtain ⟨c, cs, ha, hc⟩ := exists_of_opensApart h
  simp [opensApart, ha, hc]

theorem closesApart_append (a : String) {b : String} (h : closesApart b = true) :
    closesApart (a ++ b) = true := by
  obtain ⟨cs, c, hb, hc⟩ := exists_of_closesApart h
  simp [closesApart, hb, hc]

theorem tokens_append_of_opensApart {b : String} (h : opensApart b = true) (a : String) :
    tokens (a ++ b) = tokens a ++ tokens b := by
  obtain ⟨c, cs, hb, hc⟩ := exists_of_opensApart h
  unfold tokens
  rw [String.toList_append, hb, scan_append_sign hc, scan_sign hc]
  rfl

theorem tokens_append_of_closesApart {a : String} (h : closesApart a = true) (b : String) :
    tokens (a ++ b) = tokens a ++ tokens b := by
  obtain ⟨cs, c, ha, hc⟩ := exists_of_closesApart h
  unfold tokens
  rw [String.toList_append, ha, List.append_assoc, List.singleton_append, scan_append_sign hc,
    scan_append_sign hc, List.append_assoc, List.append_assoc]
  rfl

theorem tokens_between {s : String} (hopens : opensApart s = true) (hcloses : closesApart s = true)
    (a b : String) : tokens (a ++ s ++ b) = tokens a ++ tokens s ++ tokens b := by
  rw [String.append_assoc, tokens_append_of_opensApart (opensApart_append hopens b),
    tokens_append_of_closesApart hcloses, List.append_assoc]

theorem tokens_append_between {s : String} {c : Char} (hs : tokens s = [.sign c])
    (hopens : opensApart s = true) (hcloses : closesApart s = true) (a b : String) :
    tokens (a ++ s ++ b) = tokens a ++ .sign c :: tokens b := by
  rw [tokens_between hopens hcloses, hs, List.append_assoc, List.singleton_append]

theorem tokens_word {text : String} (hne : text ≠ "") (h : text.toList.all isNameChar = true) :
    tokens text = [.word text] := by
  have hcs : text.toList ≠ [] := by simpa using hne
  unfold tokens
  rw [scan_word h, List.nil_append, ofWord, if_neg (by simpa using hcs), String.ofList_toList]

theorem isNameChar_of_isLetter {c : Char} (h : isLetter c = true) : isNameChar c = true := by
  simp [isNameChar, h]

theorem isNameChar_of_isNumeral {c : Char} (h : isNumeral c = true) : isNameChar c = true := by
  simp [isNameChar, h]

theorem not_isNumeral_of_isLetter {c : Char} (h : isLetter c = true) : isNumeral c = false := by
  simp only [isLetter, isNumeral, Bool.or_eq_true, Bool.and_eq_true, Bool.and_eq_false_iff,
    decide_eq_true_eq, decide_eq_false_iff_not, Char.le_def, UInt32.le_iff_toNat_le] at h ⊢
  change (97 ≤ c.toNat ∧ c.toNat ≤ 122) ∨ (65 ≤ c.toNat ∧ c.toNat ≤ 90) at h
  change ¬48 ≤ c.toNat ∨ ¬c.toNat ≤ 57
  omega

theorem exists_of_isIdentifier {name : String} (h : isIdentifier name = true) :
    ∃ c cs, name.toList = c :: cs ∧ isLetter c = true ∧ cs.all isNameChar = true := by
  unfold isIdentifier at h
  cases hcs : name.toList with
  | nil => simp [hcs] at h
  | cons c cs =>
    rw [hcs, Bool.and_eq_true] at h
    exact ⟨c, cs, rfl, h⟩

theorem tokens_identifier {name : String} (h : isIdentifier name = true) :
    tokens name = [.word name] := by
  obtain ⟨c, cs, hname, hc, hcs⟩ := exists_of_isIdentifier h
  apply tokens_word
  · rintro rfl
    simp at hname
  · rw [hname, List.all_cons, isNameChar_of_isLetter hc, hcs, Bool.true_and]

theorem readNat?_identifier {name : String} (h : isIdentifier name = true) :
    readNat? name.toList = none := by
  obtain ⟨c, cs, hname, hc, -⟩ := exists_of_isIdentifier h
  simp [readNat?, hname, not_isNumeral_of_isLetter hc]

theorem toList_toString (n : Nat) : (toString n).toList = Nat.toDigits 10 n := by
  rw [Nat.toString_eq_repr, Nat.repr_eq_ofList_toDigits, String.toList_ofList]

theorem toList_toString_negSucc (n : Nat) :
    (toString (Int.negSucc n)).toList = '-' :: Nat.toDigits 10 (n + 1) := by
  rw [Int.toString_eq_repr, ← toList_toString, Nat.toString_eq_repr]
  exact String.toList_append

theorem isNumeral_of_mem_toDigits {n : Nat} {c : Char} (h : c ∈ Nat.toDigits 10 n) :
    isNumeral c = true := by
  simpa [isNumeral, Char.isDigit, Char.le_def] using
    Nat.isDigit_of_mem_toDigits (by decide) (by decide) h

theorem toDigits_ne_nil (n : Nat) : Nat.toDigits 10 n ≠ [] :=
  List.ne_nil_of_length_pos Nat.length_toDigits_pos

theorem readNat?_toString (n : Nat) : readNat? (toString n).toList = some n := by
  have hall : (Nat.toDigits 10 n).all isNumeral = true :=
    List.all_eq_true.2 fun _ => isNumeral_of_mem_toDigits
  rw [toList_toString, readNat?, if_neg (by simp [hall]),
    Nat.ofDigitChars_toDigits (by decide) (by decide)]

theorem tokens_toString (n : Nat) : tokens (toString n) = [.word (toString n)] := by
  apply tokens_word
  · intro hempty
    have hdigits := toList_toString n
    rw [hempty] at hdigits
    exact toDigits_ne_nil n hdigits.symm
  · rw [toList_toString, List.all_eq_true]
    intro c hc
    exact isNameChar_of_isNumeral (isNumeral_of_mem_toDigits hc)

theorem tokens_toString_int (n : Int) :
    tokens (toString n) = if 0 ≤ n then [.word (toString n.toNat)]
      else [.sign '-', .word (toString (-n).toNat)] := by
  rw [Int.toString_eq_repr, Int.repr_eq_if]
  split
  · rw [← Nat.toString_eq_repr, tokens_toString]
  · rw [← Nat.toString_eq_repr, tokens_append_of_closesApart rfl, tokens_toString]
    rfl

end LatticeKinetics.Fortran
