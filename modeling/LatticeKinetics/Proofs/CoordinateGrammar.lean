import LatticeKinetics.Coordinate.Parser
import LatticeKinetics.Proofs.Outcome
import Mathlib.Data.Nat.Digits.Defs
import Mathlib.Data.List.TakeWhile

/-! The grammar of written coordinates, said without the scanner that reads them. A text is read in
exactly one way, and the relation `Reads` says for every text what comes out of it: a coordinate, or
the one error that is reported. -/

namespace LatticeKinetics

namespace Text

/-! ### Runs of characters -/

/-- A run of characters with the property cannot go on here. -/
def Stops (p : Char → Bool) (cs : List Char) : Prop :=
  ∀ c ∈ cs.head?, p c = false

theorem stops_nil (p : Char → Bool) : Stops p [] := by
  simp [Stops]

theorem stops_cons {p : Char → Bool} {c : Char} {cs : List Char} :
    Stops p (c :: cs) ↔ p c = false := by
  simp [Stops]

theorem stops_dropWhile (p : Char → Bool) (cs : List Char) : Stops p (cs.dropWhile p) := by
  intro c hc
  have h := List.head?_dropWhile_not p cs
  rw [Option.mem_def.1 hc] at h
  exact h

theorem takeWhile_run {p : Char → Bool} {run rest : List Char} (hrun : ∀ c ∈ run, p c = true)
    (hrest : Stops p rest) : (run ++ rest).takeWhile p = run := by
  rw [List.takeWhile_append_of_pos hrun]
  cases rest with
  | nil => simp
  | cons c rest => rw [List.takeWhile_cons_of_neg (by simp [stops_cons.1 hrest]), List.append_nil]

theorem dropWhile_run {p : Char → Bool} {run rest : List Char} (hrun : ∀ c ∈ run, p c = true)
    (hrest : Stops p rest) : (run ++ rest).dropWhile p = rest := by
  rw [List.dropWhile_append_of_pos hrun]
  cases rest with
  | nil => rfl
  | cons c rest => rw [List.dropWhile_cons_of_neg (by simp [stops_cons.1 hrest])]

def Blanks (cs : List Char) : Prop :=
  ∀ c ∈ cs, isBlank c = true

theorem blanks_nil : Blanks [] := by
  simp [Blanks]

theorem trimLeft_eq_iff {cs rest : List Char} :
    trimLeft cs = rest ↔ ∃ ws, Blanks ws ∧ Stops isBlank rest ∧ cs = ws ++ rest := by
  constructor
  · rintro rfl
    exact ⟨cs.takeWhile isBlank, fun c hc => List.mem_takeWhile_imp hc, stops_dropWhile _ _,
      List.takeWhile_append_dropWhile.symm⟩
  · rintro ⟨ws, hws, hstop, rfl⟩
    exact dropWhile_run hws hstop

def Trimmed (cs core : List Char) : Prop :=
  ∃ ws ws', Blanks ws ∧ Blanks ws' ∧ cs = ws ++ core ++ ws' ∧ Stops isBlank core ∧
    Stops isBlank core.reverse

theorem trimRight_eq_iff {cs core : List Char} :
    trimRight cs = core ↔ ∃ ws, Blanks ws ∧ Stops isBlank core.reverse ∧ cs = core ++ ws := by
  have hreverse : trimRight cs = core ↔ trimLeft cs.reverse = core.reverse := by
    rw [trimRight, ← List.reverse_inj, List.reverse_reverse]
    rfl
  rw [hreverse, trimLeft_eq_iff]
  constructor
  · rintro ⟨ws, hws, hstop, hcs⟩
    refine ⟨ws.reverse, fun c hc => hws c (List.mem_reverse.1 hc), hstop, ?_⟩
    rw [← List.reverse_inj, hcs, List.reverse_append, List.reverse_reverse]
  · rintro ⟨ws, hws, hstop, rfl⟩
    exact ⟨ws.reverse, fun c hc => hws c (List.mem_reverse.1 hc), hstop, List.reverse_append⟩

theorem trim_eq_iff {cs core : List Char} : trim cs = core ↔ Trimmed cs core := by
  unfold trim
  rw [trimRight_eq_iff]
  constructor
  · rintro ⟨ws', hws', hstop', htrim⟩
    obtain ⟨ws, hws, hstop, hcs⟩ := trimLeft_eq_iff.1 htrim
    refine ⟨ws, ws', hws, hws', by rw [hcs, List.append_assoc], ?_, hstop'⟩
    cases core with
    | nil => exact stops_nil _
    | cons c core => exact stops_cons.2 (stops_cons.1 hstop)
  · rintro ⟨ws, ws', hws, hws', rfl, hstop, hstop'⟩
    cases core with
    | nil =>
      -- Nothing is left: all blanks go with those in front.
      refine ⟨[], blanks_nil, hstop', trimLeft_eq_iff.2 ⟨ws ++ ws', ?_, stops_nil _, by simp⟩⟩
      exact fun c hc => (List.mem_append.1 hc).elim (hws c) (hws' c)
    | cons c core =>
      refine ⟨ws', hws', hstop', trimLeft_eq_iff.2 ⟨ws, hws, ?_, List.append_assoc _ _ _⟩⟩
      exact stops_cons.2 (stops_cons.1 hstop)

/-! ### Numbers -/

def decimal (digits : List Char) : Nat :=
  Nat.ofDigits 10 (digits.reverse.map fun c => c.toNat - '0'.toNat)

def Digits (cs : List Char) : Prop :=
  cs ≠ [] ∧ ∀ c ∈ cs, isNumeral c = true

/-- Digits with at most one sign in front, and their value. -/
inductive Numeral : List Char → Int → Prop
  | unsigned {digits : List Char} : Digits digits → Numeral digits (decimal digits)
  | positive {digits : List Char} : Digits digits → Numeral ('+' :: digits) (decimal digits)
  | negative {digits : List Char} :
    Digits digits → Numeral ('-' :: digits) (-(decimal digits : Int))

theorem ofDigitChars_eq_decimal (digits : List Char) :
    Nat.ofDigitChars 10 digits 0 = decimal digits := by
  unfold decimal
  induction digits with
  | nil => rfl
  | cons c digits ih =>
    rw [Nat.ofDigitChars_cons, Nat.ofDigitChars_eq_ofDigitChars_zero, ih, List.reverse_cons,
      List.map_append, List.map_singleton, Nat.ofDigits_append, Nat.ofDigits_singleton,
      List.length_map, List.length_reverse, Nat.mul_zero, Nat.zero_add, Nat.add_comm]

theorem readNat?_eq_some_iff {cs : List Char} {n : Nat} :
    readNat? cs = some n ↔ Digits cs ∧ n = decimal cs := by
  unfold readNat?
  rw [ofDigitChars_eq_decimal]
  split
  · rename_i hbad
    refine ⟨nofun, ?_⟩
    rintro ⟨⟨hne, hall⟩, -⟩
    simp [hne, List.all_eq_true.2 hall] at hbad
  · rename_i hgood
    have hdigits : Digits cs := by simpa [Digits] using hgood
    simp [hdigits, eq_comm]

theorem readInt?_eq_some_iff {cs : List Char} {n : Int} :
    readInt? cs = some n ↔ Numeral cs n := by
  constructor
  · intro h
    unfold readInt? at h
    split at h
    · simp only [Option.map_eq_some_iff, Option.bind_eq_bind, Option.bind_eq_some_iff,
        Option.pure_def, Option.some.injEq, readNat?_eq_some_iff] at h
      obtain ⟨_, ⟨_, ⟨hdigits, rfl⟩, rfl⟩, rfl⟩ := h
      exact .negative hdigits
    · simp only [Option.map_eq_some_iff, readNat?_eq_some_iff] at h
      obtain ⟨_, ⟨hdigits, rfl⟩, rfl⟩ := h
      exact .positive hdigits
    · simp only [Option.map_eq_some_iff, readNat?_eq_some_iff] at h
      obtain ⟨_, ⟨hdigits, rfl⟩, rfl⟩ := h
      exact .unsigned hdigits
  · intro h
    cases h with
    | positive hdigits => simp [readInt?, readNat?_eq_some_iff.2 ⟨hdigits, rfl⟩]
    | negative hdigits => simp [readInt?, readNat?_eq_some_iff.2 ⟨hdigits, rfl⟩]
    | unsigned hdigits =>
      -- A digit is no sign, so the first two rows do not apply.
      unfold readInt?
      split
      · exact absurd (hdigits.2 '-' List.mem_cons_self) (by decide)
      · exact absurd (hdigits.2 '+' List.mem_cons_self) (by decide)
      · simp [readNat?_eq_some_iff.2 ⟨hdigits, rfl⟩]

def Word32 (cs : List Char) (n : Int) : Prop :=
  Numeral cs n ∧ -2147483648 ≤ n ∧ n ≤ 2147483647

theorem readWord32?_eq_some_iff {cs : List Char} {n : Int} :
    readWord32? cs = some n ↔ Word32 cs n := by
  unfold readWord32? Word32
  rw [Option.filter_eq_some_iff, readInt?_eq_some_iff]
  simp [fitsWord32]

theorem readWord32?_eq_none_iff {cs : List Char} :
    readWord32? cs = none ↔ ∀ n, ¬Word32 cs n := by
  rw [Option.eq_none_iff_forall_ne_some]
  exact forall_congr' fun n => not_congr readWord32?_eq_some_iff

end Text

namespace Coordinate

open Text

/-! ### Shapes -/

def IsName (cs : List Char) : Prop :=
  ∃ first rest, cs = first :: rest ∧ isNameStart first = true ∧ ∀ c ∈ rest, isNameChar c = true

inductive SpellsLayer : List Char → Option (List Char) → Prop
  | absent {ws : List Char} : Blanks ws → SpellsLayer ws none
  | present {ws ws' ws'' layer : List Char} : Blanks ws → Blanks ws' → Blanks ws'' →
      IsName layer → SpellsLayer (ws ++ '.' :: (ws' ++ (layer ++ ws''))) (some layer)

/-- A site, a dot, a body in parentheses and perhaps a layer, with blanks around every part. -/
inductive Spells : List Char → Shape → Prop
  | parts {ws ws' ws'' rest : List Char} {s : Shape} : Blanks ws → Blanks ws' → Blanks ws'' →
      IsName s.site → (∀ c ∈ s.body, c ≠ '(' ∧ c ≠ ')') → SpellsLayer rest s.layer →
      Spells (ws ++ (s.site ++ (ws' ++ '.' :: (ws'' ++ '(' :: (s.body ++ ')' :: rest))))) s

theorem isNameChar_eq_false_of_isBlank {c : Char} (h : isBlank c = true) :
    isNameChar c = false := by
  simp only [isBlank, Bool.or_eq_true, Bool.and_eq_true, decide_eq_true_eq, beq_iff_eq] at h
  simp only [isNameChar, isLetter, isNumeral, Bool.or_eq_false_iff, Bool.and_eq_false_iff,
    decide_eq_false_iff_not, beq_eq_false_iff_ne, Char.le_def, UInt32.le_iff_toNat_le]
  refine ⟨⟨⟨?_, ?_⟩, ?_⟩, ?_⟩
  · change ¬97 ≤ c.toNat ∨ ¬c.toNat ≤ 122
    omega
  · change ¬65 ≤ c.toNat ∨ ¬c.toNat ≤ 90
    omega
  · change ¬48 ≤ c.toNat ∨ ¬c.toNat ≤ 57
    omega
  · rintro rfl
    revert h
    decide

theorem isNameChar_of_isNameStart {c : Char} (h : isNameStart c = true) : isNameChar c = true := by
  unfold isNameStart at h
  unfold isNameChar
  grind

theorem stops_isBlank_of_isName {cs : List Char} (h : IsName cs) (rest : List Char) :
    Stops isBlank (cs ++ rest) := by
  obtain ⟨first, tail, rfl, hfirst, -⟩ := h
  refine stops_cons.2 ?_
  by_contra hblank
  have hname := isNameChar_eq_false_of_isBlank (Bool.eq_true_of_not_eq_false hblank)
  rw [isNameChar_of_isNameStart hfirst] at hname
  contradiction

theorem stops_isNameChar_of_blanks {ws rest : List Char} (h : Blanks ws)
    (hrest : Stops isNameChar rest) : Stops isNameChar (ws ++ rest) := by
  cases ws with
  | nil => exact hrest
  | cons w ws => exact stops_cons.2 (isNameChar_eq_false_of_isBlank (h w List.mem_cons_self))

theorem scanName_eq_some_iff {cs name rest : List Char} :
    scanName cs = some (name, rest) ↔ cs = name ++ rest ∧ IsName name ∧ Stops isNameChar rest := by
  cases cs with
  | nil =>
    refine ⟨nofun, ?_⟩
    rintro ⟨h, ⟨first, tail, rfl, -, -⟩, -⟩
    exact absurd h (by simp)
  | cons c cs =>
    rw [scanName]
    constructor
    · intro h
      split at h
      · rename_i hc
        obtain ⟨rfl, rfl⟩ := Prod.mk.inj (Option.some.inj h)
        refine ⟨?_, ⟨c, _, rfl, hc, fun d hd => List.mem_takeWhile_imp hd⟩, stops_dropWhile _ _⟩
        rw [List.cons_append, List.takeWhile_append_dropWhile]
      · contradiction
    · rintro ⟨h, ⟨first, tail, rfl, hfirst, htail⟩, hstop⟩
      rw [List.cons_append] at h
      obtain ⟨rfl, rfl⟩ := List.cons.inj h
      rw [if_pos hfirst, takeWhile_run htail hstop, dropWhile_run htail hstop]

theorem scanChar_eq_some_iff {expected : Char} {cs rest : List Char} :
    scanChar expected cs = some rest ↔ cs = expected :: rest := by
  cases cs with
  | nil => simp [scanChar]
  | cons c cs => simp [scanChar]

theorem stops_dot (rest : List Char) : Stops isBlank ('.' :: rest) :=
  stops_cons.2 (by decide)

theorem scanLayer_eq_some_iff {cs : List Char} {layer : Option (List Char)} :
    scanLayer cs = some layer ↔ SpellsLayer cs layer := by
  constructor
  · intro h
    obtain ⟨ws, hws, -, hcs⟩ := trimLeft_eq_iff.1 (rfl : trimLeft cs = trimLeft cs)
    unfold scanLayer at h
    split at h
    · rename_i hnil
      obtain rfl := Option.some.inj h
      rw [hnil, List.append_nil] at hcs
      exact .absent (hcs ▸ hws)
    · simp only [Option.bind_eq_bind, Option.bind_eq_some_iff, scanChar_eq_some_iff] at h
      obtain ⟨afterDot, hdot, ⟨name, rest⟩, hname, h⟩ := h
      obtain ⟨ws', hws', -, hafter⟩ := trimLeft_eq_iff.1 (rfl : trimLeft afterDot = _)
      obtain ⟨hsplit, hisName, -⟩ := scanName_eq_some_iff.1 hname
      dsimp only at h
      split at h
      · rename_i hempty
        obtain rfl := Option.some.inj h
        obtain ⟨ws'', hws'', -, hrest⟩ := trimLeft_eq_iff.1 (List.isEmpty_iff.1 hempty)
        rw [hcs, hdot, hafter, hsplit, hrest, List.append_nil]
        exact .present hws hws' hws'' hisName
      · contradiction
  · intro h
    cases h with
    | absent hws =>
      have hnil : trimLeft cs = [] := trimLeft_eq_iff.2 ⟨cs, hws, stops_nil _, by simp⟩
      simp [scanLayer, hnil]
    | @present ws ws' ws'' layer hws hws' hws'' hlayer =>
      have hdot : trimLeft (ws ++ '.' :: (ws' ++ (layer ++ ws''))) =
          '.' :: (ws' ++ (layer ++ ws'')) :=
        trimLeft_eq_iff.2 ⟨ws, hws, stops_dot _, rfl⟩
      have hname : trimLeft (ws' ++ (layer ++ ws'')) = layer ++ ws'' :=
        trimLeft_eq_iff.2 ⟨ws', hws', stops_isBlank_of_isName hlayer _, rfl⟩
      have hscan : scanName (layer ++ ws'') = some (layer, ws'') := by
        refine scanName_eq_some_iff.2 ⟨rfl, hlayer, ?_⟩
        simpa using stops_isNameChar_of_blanks hws'' (stops_nil isNameChar)
      have hnil : trimLeft ws'' = [] := trimLeft_eq_iff.2 ⟨ws'', hws'', stops_nil _, by simp⟩
      simp [scanLayer, hdot, scanChar, hname, hscan, hnil]

theorem isBodyChar_iff {c : Char} : isBodyChar c = true ↔ c ≠ '(' ∧ c ≠ ')' := by
  simp [isBodyChar]

/-- The scanner finds the parts of a text exactly when the text is made of them. -/
theorem scanShape_eq_some_iff {cs : List Char} {s : Shape} :
    scanShape cs = some s ↔ Spells cs s := by
  constructor
  · intro h
    simp only [scanShape, Option.bind_eq_bind, Option.bind_eq_some_iff, Option.pure_def,
      scanChar_eq_some_iff, Option.some.injEq] at h
    obtain ⟨⟨site, rest₁⟩, hsite, rest₂, hdot, rest₃, hopen, rest₄, hclose, layer, hlayer, rfl⟩ := h
    obtain ⟨ws, hws, -, hcs⟩ := trimLeft_eq_iff.1 (rfl : trimLeft cs = _)
    obtain ⟨hsplit, hname, -⟩ := scanName_eq_some_iff.1 hsite
    obtain ⟨ws', hws', -, hrest₁⟩ := trimLeft_eq_iff.1 hdot
    obtain ⟨ws'', hws'', -, hrest₂⟩ := trimLeft_eq_iff.1 hopen
    have hrest₃ : rest₃.takeWhile isBodyChar ++ ')' :: rest₄ = rest₃ := by
      rw [← hclose, List.takeWhile_append_dropWhile]
    have hparts := Spells.parts (s := ⟨site, rest₃.takeWhile isBodyChar, layer⟩) hws hws' hws''
      hname (fun c hc => isBodyChar_iff.1 (List.mem_takeWhile_imp hc))
      (scanLayer_eq_some_iff.1 hlayer)
    dsimp only at hrest₁ hparts
    rw [hcs, hsplit, hrest₁, hrest₂]
    rwa [hrest₃] at hparts
  · intro h
    obtain @⟨ws, ws', ws'', rest, s, hws, hws', hws'', hsite, hbody, hlayer⟩ := h
    have hstart := trimLeft_eq_iff.2 ⟨ws, hws, stops_isBlank_of_isName hsite
      (ws' ++ '.' :: (ws'' ++ '(' :: (s.body ++ ')' :: rest))), rfl⟩
    have hscan : scanName (s.site ++ (ws' ++ '.' :: (ws'' ++ '(' :: (s.body ++ ')' :: rest)))) =
        some (s.site, ws' ++ '.' :: (ws'' ++ '(' :: (s.body ++ ')' :: rest))) := by
      refine scanName_eq_some_iff.2 ⟨rfl, hsite, stops_isNameChar_of_blanks hws' ?_⟩
      exact stops_cons.2 (by decide)
    have hdot := trimLeft_eq_iff.2
      ⟨ws', hws', stops_dot (ws'' ++ '(' :: (s.body ++ ')' :: rest)), rfl⟩
    have hopen :
        trimLeft (ws'' ++ '(' :: (s.body ++ ')' :: rest)) = '(' :: (s.body ++ ')' :: rest) :=
      trimLeft_eq_iff.2 ⟨ws'', hws'', stops_cons.2 (by decide), rfl⟩
    have hchars : ∀ c ∈ s.body, isBodyChar c = true := fun c hc => isBodyChar_iff.2 (hbody c hc)
    have hstop : Stops isBodyChar (')' :: rest) := stops_cons.2 (by decide)
    simp [scanShape, hstart, hscan, hdot, hopen, scanChar, takeWhile_run hchars hstop,
      dropWhile_run hchars hstop, scanLayer_eq_some_iff.2 hlayer]

/-! ### Components -/

def Pieces (body : List Char) (ps : List (List Char)) : Prop :=
  List.Forall₂ Trimmed (body.splitOn ',') ps

theorem pieces_eq_iff {body : List Char} {ps : List (List Char)} :
    pieces body = ps ↔ Pieces body ps := by
  unfold pieces Pieces
  rw [← List.forall₂_eq_eq_eq, List.forall₂_map_left_iff]
  simp only [trim_eq_iff]

theorem readComponents_eq_ok_iff {input : String} {ps : List (List Char)} {values : List Int} :
    readComponents input ps = .ok values ↔ List.Forall₂ Word32 ps values := by
  induction ps generalizing values with
  | nil => simp [readComponents, eq_comm]
  | cons p ps ih =>
    rw [readComponents]
    simp only [List.forall₂_cons_left_iff, ← ih, ← readWord32?_eq_some_iff]
    cases readWord32? p with
    | none => simp
    | some n =>
      simp only [bind_eq_ok_iff, pure_eq_ok_iff, Option.some.injEq]
      grind

theorem readComponents_eq_error_iff {input : String} {ps : List (List Char)} {e : ParseError} :
    readComponents input ps = .error e ↔
      ∃ before piece after, ps = before ++ piece :: after ∧
        (∀ p ∈ before, ∃ n, Word32 p n) ∧ (∀ n, ¬Word32 piece n) ∧
        e = .invalidComponent input (String.ofList piece) := by
  induction ps with
  | nil => simp [readComponents]
  | cons p ps ih =>
    rw [readComponents]
    cases h : readWord32? p with
    | none =>
      have hp := readWord32?_eq_none_iff.1 h
      constructor
      · intro herror
        exact ⟨[], p, ps, rfl, by simp, hp, (Except.error.inj herror).symm⟩
      · rintro ⟨before, piece, after, hps, hbefore, hpiece, rfl⟩
        cases before with
        | nil => rw [(List.cons.inj hps).1]
        | cons q before =>
          obtain ⟨n, hn⟩ := hbefore q List.mem_cons_self
          exact absurd ((List.cons.inj hps).1 ▸ hn) (hp n)
    | some n =>
      have hp := readWord32?_eq_some_iff.1 h
      have hrest : (do
          let ns ← readComponents input ps
          pure (n :: ns) : Except ParseError (List Int)) = .error e ↔
            readComponents input ps = .error e := map_eq_error_iff
      dsimp only
      rw [hrest, ih]
      constructor
      · rintro ⟨before, piece, after, rfl, hbefore, hpiece, rfl⟩
        exact ⟨p :: before, piece, after, rfl,
          List.forall_mem_cons.2 ⟨⟨n, hp⟩, hbefore⟩, hpiece, rfl⟩
      · rintro ⟨before, piece, after, hps, hbefore, hpiece, rfl⟩
        cases before with
        | nil => exact absurd ((List.cons.inj hps).1 ▸ hp) (hpiece n)
        | cons q before =>
          exact ⟨before, piece, after, (List.cons.inj hps).2,
            (List.forall_mem_cons.1 hbefore).2, hpiece, rfl⟩

theorem excess?_eq_some_iff {dimension axis : Nat} {full : List Int} {value : Int} :
    excess? dimension full = some (value, axis) ↔
      full[axis]? = some value ∧ dimension ≤ axis ∧ value ≠ 0 ∧
        ∀ i v, full[i]? = some v → dimension ≤ i ∧ i < axis → v = 0 := by
  unfold excess?
  simp only [List.find?_eq_some_iff_getElem, List.getElem_zipIdx, List.length_zipIdx,
    Bool.and_eq_true, decide_eq_true_eq, bne_iff_ne, Bool.not_eq_true', Bool.and_eq_false_iff,
    decide_eq_false_iff_not, bne_eq_false_iff_eq, Prod.mk.injEq, Nat.zero_add]
  constructor
  · rintro ⟨⟨hle, hne⟩, i, hi, ⟨rfl, rfl⟩, hbefore⟩
    refine ⟨List.getElem?_eq_getElem hi, hle, hne, ?_⟩
    rintro j v hv ⟨hj, hlt⟩
    obtain ⟨_, rfl⟩ := List.getElem?_eq_some_iff.1 hv
    exact (hbefore j hlt).resolve_left (not_not_intro hj)
  · rintro ⟨hvalue, hle, hne, hbefore⟩
    obtain ⟨hlt, rfl⟩ := List.getElem?_eq_some_iff.1 hvalue
    refine ⟨⟨hle, hne⟩, axis, hlt, ⟨rfl, rfl⟩, ?_⟩
    intro j hj
    have hget := List.getElem?_eq_getElem (Nat.lt_trans hj hlt)
    exact (Decidable.em (dimension ≤ j)).symm.imp_right fun hdim => hbefore j _ hget ⟨hdim, hj⟩

theorem excess?_eq_none_iff {dimension : Nat} {full : List Int} :
    excess? dimension full = none ↔
      ∀ i v, full[i]? = some v → dimension ≤ i → v = 0 := by
  unfold excess?
  simp only [List.find?_eq_none, Prod.forall, List.mem_zipIdx_iff_getElem?, Bool.and_eq_true,
    decide_eq_true_eq, bne_iff_ne, not_and, not_not]
  exact ⟨fun h i v => h v i, fun h v i => h i v⟩

/-- Three components: zeros stand for those that are not given. -/
def filled (values : List Int) : List Int :=
  values ++ List.replicate (3 - values.length) 0

theorem getElem?_filled_iff {values : List Int} {i : Nat} {v : Int} (hv : v ≠ 0) :
    (filled values)[i]? = some v ↔ values[i]? = some v := by
  unfold filled
  by_cases hi : i < values.length
  · rw [List.getElem?_append_left hi]
  · rw [List.getElem?_append_right (by omega), List.getElem?_replicate,
      List.getElem?_eq_none (by omega)]
    simp [hv.symm]

theorem forall_filled_iff {values : List Int} (P : Nat → Prop) :
    (∀ i v, (filled values)[i]? = some v → P i → v = 0) ↔
      ∀ i v, values[i]? = some v → P i → v = 0 := by
  constructor
  · intro h i v hv hi
    by_contra hne
    exact hne (h i v ((getElem?_filled_iff hne).2 hv) hi)
  · intro h i v hv hi
    by_contra hne
    exact hne (h i v ((getElem?_filled_iff hne).1 hv) hi)

/-! ### Reading -/

structure Written (input : String) (s : Shape) (ps : List (List Char)) : Prop where
  shape : Spells input.toList s
  pieces : Pieces s.body ps
  count : 1 ≤ ps.length ∧ ps.length ≤ 3

theorem written_iff {input : String} {s : Shape} {ps : List (List Char)} :
    Written input s ps ↔
      scanShape input.toList = some s ∧ pieces s.body = ps ∧ ps.length ≤ 3 := by
  rw [scanShape_eq_some_iff, pieces_eq_iff]
  constructor
  · rintro ⟨hshape, hpieces, -, hcount⟩
    exact ⟨hshape, hpieces, hcount⟩
  · rintro ⟨hshape, hpieces, hcount⟩
    refine ⟨hshape, hpieces, ?_, hcount⟩
    rw [← hpieces.length_eq]
    exact List.length_pos_of_ne_nil (List.splitOn_ne_nil _ _)

/-- What a text is read as: a coordinate, or the first thing that is wrong with it. -/
inductive Reads (input : String) (dimension : Nat) (defaultLayer : String) :
    Except ParseError Coordinate → Prop
  | coordinate {s : Shape} {ps : List (List Char)} {values : List Int} :
      Written input s ps → List.Forall₂ Word32 ps values →
      (∀ axis value, values[axis]? = some value → dimension ≤ axis → value = 0) →
      Reads input dimension defaultLayer (.ok {
        offset := (filled values).take dimension
        site := String.ofList s.site
        layer := (s.layer.map String.ofList).getD defaultLayer })
  | malformed : (∀ s ps, ¬Written input s ps) →
      Reads input dimension defaultLayer (.error (.malformed input))
  | invalidComponent {s : Shape} {before after : List (List Char)} {piece : List Char} :
      Written input s (before ++ piece :: after) → (∀ p ∈ before, ∃ n, Word32 p n) →
      (∀ n, ¬Word32 piece n) →
      Reads input dimension defaultLayer (.error (.invalidComponent input (String.ofList piece)))
  | excessAxis {s : Shape} {ps : List (List Char)} {values : List Int} {axis : Nat} {value : Int} :
      Written input s ps → List.Forall₂ Word32 ps values →
      values[axis]? = some value → dimension ≤ axis → value ≠ 0 →
      (∀ i v, values[i]? = some v → dimension ≤ i ∧ i < axis → v = 0) →
      Reads input dimension defaultLayer (.error (.excessAxis input axis value dimension))

section

variable {input : String} {s : Shape} {ps : List (List Char)} {values : List Int}
  {dimension : Nat} {defaultLayer : String}

theorem parse_of_not_written (h : ∀ s ps, ¬Written input s ps) :
    parse input dimension defaultLayer = .error (.malformed input) := by
  unfold parse
  cases hshape : scanShape input.toList with
  | none => rfl
  | some s =>
    have hcount : 3 < (pieces s.body).length := by
      by_contra hle
      exact h s _ (written_iff.2 ⟨hshape, rfl, by omega⟩)
    exact if_pos hcount

theorem parse_of_error (h : Written input s ps) {e : ParseError}
    (hread : readComponents input ps = .error e) :
    parse input dimension defaultLayer = .error e := by
  obtain ⟨hshape, rfl, hcount⟩ := written_iff.1 h
  unfold parse
  rw [hshape]
  dsimp only
  rw [if_neg (by omega), hread]
  rfl

theorem parse_of_values (h : Written input s ps) (hread : readComponents input ps = .ok values) :
    parse input dimension defaultLayer =
      match excess? dimension (filled values) with
      | some (value, axis) => .error (.excessAxis input axis value dimension)
      | none => .ok {
          offset := (filled values).take dimension
          site := String.ofList s.site
          layer := (s.layer.map String.ofList).getD defaultLayer } := by
  obtain ⟨hshape, rfl, hcount⟩ := written_iff.1 h
  unfold parse
  rw [hshape]
  dsimp only
  rw [if_neg (by omega), hread]
  rfl

theorem Reads.parse_eq {outcome : Except ParseError Coordinate}
    (h : Reads input dimension defaultLayer outcome) :
    parse input dimension defaultLayer = outcome := by
  cases h with
  | malformed hwritten => exact parse_of_not_written hwritten
  | coordinate hwritten hvalues hzero =>
    rw [parse_of_values hwritten (readComponents_eq_ok_iff.2 hvalues),
      excess?_eq_none_iff.2 ((forall_filled_iff _).2 hzero)]
  | invalidComponent hwritten hbefore hpiece =>
    exact parse_of_error hwritten
      (readComponents_eq_error_iff.2 ⟨_, _, _, rfl, hbefore, hpiece, rfl⟩)
  | excessAxis hwritten hvalues hvalue hle hne hfirst =>
    rw [parse_of_values hwritten (readComponents_eq_ok_iff.2 hvalues), excess?_eq_some_iff.2
      ⟨(getElem?_filled_iff hne).2 hvalue, hle, hne, (forall_filled_iff _).2 hfirst⟩]

theorem reads_of_written (h : Written input s ps) :
    Reads input dimension defaultLayer (parse input dimension defaultLayer) := by
  cases hread : readComponents input ps with
  | error e =>
    rw [parse_of_error h hread]
    obtain ⟨before, piece, after, rfl, hbefore, hpiece, rfl⟩ := readComponents_eq_error_iff.1 hread
    exact .invalidComponent h hbefore hpiece
  | ok values =>
    rw [parse_of_values h hread]
    have hvalues := readComponents_eq_ok_iff.1 hread
    cases hexcess : excess? dimension (filled values) with
    | none => exact .coordinate h hvalues ((forall_filled_iff _).1 (excess?_eq_none_iff.1 hexcess))
    | some first =>
      obtain ⟨hvalue, hle, hne, hfirst⟩ := excess?_eq_some_iff.1 hexcess
      exact .excessAxis h hvalues ((getElem?_filled_iff hne).1 hvalue) hle hne
        ((forall_filled_iff _).1 hfirst)

end

/-- Every text is read as the grammar says, and in no other way. -/
theorem parse_accepts_exactly_grammar (input : String) (dimension : Nat) (defaultLayer : String)
    (outcome : Except ParseError Coordinate) :
    parse input dimension defaultLayer = outcome ↔ Reads input dimension defaultLayer outcome := by
  refine ⟨?_, Reads.parse_eq⟩
  rintro rfl
  by_cases hwritten : ∃ s ps, Written input s ps
  · obtain ⟨s, ps, hwritten⟩ := hwritten
    exact reads_of_written hwritten
  · have hnone : ∀ s ps, ¬Written input s ps := fun s ps h => hwritten ⟨s, ps, h⟩
    rw [parse_of_not_written hnone]
    exact .malformed hnone

example : parse " cus . ( +1 ,-02, 0 ).ruo2" 2 "default" = .ok ⟨[1, -2], "cus", "ruo2"⟩ := by
  decide

end Coordinate
end LatticeKinetics
