/-! Classes of characters. Blank characters are those with the Unicode property `White_Space`;
trimming drops them from the ends of a text and nothing else. Names in models and in generated code
are plain ASCII, and two names that differ only in the case of letters are one name to the generated
language. -/

namespace LatticeKinetics.Text

/-- Membership in a set with the given boundaries in rising order: the set begins at the first of
them, ends before the second, begins again at the third, and so on. -/
def within : List Nat → Nat → Bool
  | [], _ => false
  | [first], n => first ≤ n
  | first :: stop :: rest, n => if n < stop then first ≤ n else within rest n

def isBlank (c : Char) : Bool :=
  let n := c.toNat
  (9 ≤ n && n ≤ 13) || n == 0x20 || n == 0x85 || n == 0xA0 || n == 0x1680 ||
    (0x2000 ≤ n && n ≤ 0x200A) || n == 0x2028 || n == 0x2029 || n == 0x202F ||
    n == 0x205F || n == 0x3000

def trimLeft (cs : List Char) : List Char :=
  cs.dropWhile isBlank

def trimRight (cs : List Char) : List Char :=
  (cs.reverse.dropWhile isBlank).reverse

def trim (cs : List Char) : List Char :=
  trimRight (trimLeft cs)

theorem trimLeft_append_of_blank {ws : List Char} (cs : List Char)
    (h : ∀ c ∈ ws, isBlank c = true) : trimLeft (ws ++ cs) = trimLeft cs := by
  induction ws with
  | nil => rfl
  | cons w ws ih =>
    have hw : isBlank w = true := h w (by simp)
    simp only [trimLeft, List.cons_append, List.dropWhile_cons, hw, ↓reduceIte]
    exact ih fun c hc => h c (by simp [hc])

def isLetter (c : Char) : Bool :=
  ('a' ≤ c && c ≤ 'z') || ('A' ≤ c && c ≤ 'Z')

def isNumeral (c : Char) : Bool :=
  '0' ≤ c && c ≤ '9'

def isNameChar (c : Char) : Bool :=
  isLetter c || isNumeral c || c == '_'

/-- The characters that may open a name inside a coordinate. -/
def isNameStart (c : Char) : Bool :=
  isLetter c || c == '_'

def isIdentifier (name : String) : Bool :=
  match name.toList with
  | [] => false
  | c :: cs => isLetter c && cs.all isNameChar

/-- Upper-case ASCII letters become lower-case ones; nothing else changes. -/
def foldCase (name : String) : String :=
  String.ofList (name.toList.map Char.toLower)

@[simp] theorem toList_foldCase (name : String) :
    (foldCase name).toList = name.toList.map Char.toLower := by
  simp [foldCase]

end LatticeKinetics.Text
