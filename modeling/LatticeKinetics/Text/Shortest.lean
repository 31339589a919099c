/-! The fewest decimal digits that read back as a given binary64 number. Grids of one to seventeen
digits are tried in turn; on each, only the two neighbours of the number can round to it. -/

namespace LatticeKinetics.Text.Shortest

/-- A positive number `mantissa * 2 ^ exponent`. -/
structure Binary where
  mantissa : Nat
  exponent : Int
deriving DecidableEq, Repr

def decode (bits : Nat) : Binary :=
  let fraction := bits % 4503599627370496
  let biased := bits / 4503599627370496 % 2048
  if biased = 0 then ⟨fraction, -1074⟩ else ⟨fraction + 4503599627370496, (biased : Int) - 1075⟩

/-- A decimal `digits * 10 ^ exponent`. -/
structure Decimal where
  digits : Nat
  exponent : Int
deriving DecidableEq, Repr

def pow2 (n : Nat) : Nat :=
  Nat.pow 2 n

def pow10 (n : Nat) : Nat :=
  Nat.pow 10 n

def compareWith (a : Nat) (e : Int) (d : Nat) (k : Int) : Ordering :=
  compare (a * pow2 e.toNat * pow10 (-k).toNat) (d * pow10 k.toNat * pow2 (-e).toNat)

/-- The decimal rounds to the binary: it lies between the midpoints to the neighbours, and on one
only if the mantissa is even. -/
def roundsTo (b : Binary) (d : Nat) (k : Int) : Bool :=
  let gap := if b.mantissa = 4503599627370496 ∧ -1074 < b.exponent then 1 else 2
  let low := compareWith (4 * b.mantissa - gap) (b.exponent - 2) d k
  let high := compareWith (4 * b.mantissa + 2) (b.exponent - 2) d k
  let even := b.mantissa % 2 == 0
  (low == .lt || (low == .eq && even)) && (high == .gt || (high == .eq && even))

/-- The number of digits before the point, or minus the number of zeros behind it. -/
def magnitude (b : Binary) : Int :=
  let num := b.mantissa * pow2 b.exponent.toNat
  let den := pow2 (-b.exponent).toNat
  if den ≤ num then (Nat.toDigits 10 (num / den)).length
  else
    match (List.range 330).find? fun j => den ≤ num * pow10 (j + 1) with
    | some j => -(j : Int)
    | none => -330

def onGrid? (b : Binary) (count : Nat) : Option Decimal :=
  let k := magnitude b - count
  let num := b.mantissa * pow2 b.exponent.toNat * pow10 (-k).toNat
  let den := pow2 (-b.exponent).toNat * pow10 k.toNat
  let below := num / den
  match roundsTo b below k, roundsTo b (below + 1) k with
  | false, false => none
  | true, false => some ⟨below, k⟩
  | false, true => some ⟨below + 1, k⟩
  | true, true =>
    let twice := 2 * (num % den)
    if twice < den ∨ (twice = den ∧ below % 2 = 0) then some ⟨below, k⟩
    else some ⟨below + 1, k⟩

def shortest (b : Binary) : Decimal :=
  ((List.range 17).findSome? fun i => onGrid? b (i + 1)).getD ⟨0, 0⟩

def strip : Nat → Decimal → Decimal
  | 0, d => d
  | fuel + 1, d =>
    if d.digits ≠ 0 ∧ d.digits % 10 = 0 then strip fuel ⟨d.digits / 10, d.exponent + 1⟩ else d

/-- Positional up to sixteen digits before the point and five places behind it, else scientific,
with a sign in front of the exponent. -/
def Decimal.render (d : Decimal) : String :=
  let ds := Nat.toDigits 10 d.digits
  let point := (ds.length : Int) + d.exponent
  if 0 ≤ d.exponent ∧ point ≤ 16 then
    String.ofList (ds ++ List.replicate d.exponent.toNat '0') ++ ".0"
  else if 0 < point ∧ point ≤ 16 then
    String.ofList (ds.take point.toNat) ++ "." ++ String.ofList (ds.drop point.toNat)
  else if -5 < point ∧ point ≤ 0 then
    "0." ++ String.ofList (List.replicate (-point).toNat '0' ++ ds)
  else
    let mark := if 0 < point then s!"e+{point - 1}" else s!"e{point - 1}"
    match ds with
    | [] => mark
    | [c] => String.ofList [c] ++ mark
    | c :: cs => String.ofList [c] ++ "." ++ String.ofList cs ++ mark

def render (x : Float) : String :=
  let bits := x.toBits.toNat
  let sign := if bits < 9223372036854775808 then "" else "-"
  let magnitude := bits % 9223372036854775808
  if magnitude = 0 then sign ++ "0.0"
  else sign ++ (strip 20 (shortest (decode magnitude))).render

end LatticeKinetics.Text.Shortest
