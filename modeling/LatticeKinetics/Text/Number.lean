import LatticeKinetics.Text.Character

/-! Decimal integers as they are read, and the fixed-width forms in which numbers are printed. -/

namespace LatticeKinetics.Text

def readNat? (cs : List Char) : Option Nat :=
  if cs.isEmpty || !cs.all isNumeral then none else some (Nat.ofDigitChars 10 cs 0)

def readInt? : List Char → Option Int
  | '-' :: cs => (readNat? cs).map fun n => -(n : Int)
  | '+' :: cs => (readNat? cs).map Int.ofNat
  | cs => (readNat? cs).map Int.ofNat

def fitsWord32 (n : Int) : Bool :=
  -2147483648 ≤ n && n ≤ 2147483647

def readWord32? (cs : List Char) : Option Int :=
  (readInt? cs).filter fitsWord32

def hex16 (word : UInt64) : String :=
  let digits := Nat.toDigits 16 word.toNat
  String.ofList (List.replicate (16 - digits.length) '0' ++ digits)

def padRight (width : Nat) (text : String) : String :=
  text ++ String.ofList (List.replicate (width - text.length) ' ')

def padLeft (width : Nat) (text : String) : String :=
  String.ofList (List.replicate (width - text.length) ' ') ++ text

def byteLength (cs : List Char) : Nat :=
  cs.foldr (fun c n => c.utf8Size + n) 0

@[simp] theorem byteLength_nil : byteLength [] = 0 := rfl

@[simp] theorem byteLength_cons (c : Char) (cs : List Char) :
    byteLength (c :: cs) = c.utf8Size + byteLength cs := rfl

@[simp] theorem byteLength_append (cs ds : List Char) :
    byteLength (cs ++ ds) = byteLength cs + byteLength ds := by
  induction cs with
  | nil => simp
  | cons c cs ih => simp [ih, Nat.add_assoc]

end LatticeKinetics.Text
