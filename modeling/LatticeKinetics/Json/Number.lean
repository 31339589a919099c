import LatticeKinetics.Json.Cursor

/-! Numbers. Digits are gathered in a 64-bit significand for as long as they fit; a fraction or an
exponent then scales it by one power of ten. -/

namespace LatticeKinetics.Json

inductive Number where
  | natural (value : Nat)
  | negative (magnitude : Nat)
  | float (value : Float)
deriving DecidableEq, Repr

def Number.found : Number → Found
  | .natural n => .integer n
  | .negative n => .integer (-(n : Int))
  | .float x => .float x

def Number.toFloat : Number → Float
  | .natural n => Float.ofNat n
  | .negative n => -Float.ofNat n
  | .float x => x

namespace Reader

open Text (isNumeral)

def powerOfTen (k : Nat) : Float :=
  Float.ofScientific 1 false k

/-- Divide by ten `k` times over, in steps that a binary64 power of ten can make. -/
def scaleDown (x : Float) (k : Nat) : Float :=
  if k ≤ 308 then x / powerOfTen k
  else if x == 0 then x
  else scaleDown (x / powerOfTen 308) (k - 308)
termination_by k

def scale? (significand : Nat) (exponent : Int) : Option Float :=
  let x := Float.ofNat significand
  if exponent < 0 then some (scaleDown x (-exponent).toNat)
  else if exponent ≤ 308 then
    let y := x * powerOfTen exponent.toNat
    if y.isInf then none else some y
  else if x == 0 then some x
  else none

def signed (positive : Bool) (x : Float) : Float :=
  if positive then x else -x

def floatOf (positive : Bool) (significand : Nat) (exponent : Int) : Reader Float := do
  match scale? significand exponent with
  | some x => pure (signed positive x)
  | none => failHere .numberOutOfRange

def gather (limit : Nat) : Nat → Nat → List Char → Nat × Nat
  | value, count, [] => (value, count)
  | value, count, d :: ds =>
    let bigger := value * 10 + (d.toNat - 48)
    if limit < bigger then (value, count) else gather limit bigger (count + 1) ds

def maxSignificand : Nat := 18446744073709551615

def maxExponent : Nat := 2147483647

def exponentPart (positive : Bool) (significand : Nat) (before : Int) : Reader Float := do
  advance
  let up ← do
    match ← peek with
    | some '+' => advance; pure true
    | some '-' => advance; pure false
    | _ => pure true
  match ← peek with
  | none => failHere .endInValue
  | some c => if isNumeral c then pure () else failAhead .invalidNumber
  let start ← get
  let digits ← takeWhile isNumeral
  let (value, count) := gather maxExponent 0 0 digits
  if count = digits.length then
    floatOf positive significand (if up then before + value else before - value)
  else if significand ≠ 0 ∧ up = true then
    set (start.skipWhile isNumeral (count + 1))
    failHere .numberOutOfRange
  else pure (signed positive 0)

def isExponentMark (c : Option Char) : Bool :=
  c == some 'e' || c == some 'E'

def fractionPart (positive : Bool) (significand : Nat) (before : Int) : Reader Float := do
  advance
  let digits ← takeWhile isNumeral
  if digits.isEmpty then
    match ← peek with
    | some _ => failAhead .invalidNumber
    | none => failAhead .endInValue
  let (value, count) := gather maxSignificand significand 0 digits
  let exponent := before - count
  if isExponentMark (← peek) then exponentPart positive value exponent
  else floatOf positive value exponent

/-- A whole number may be negative but not negative zero, which is a float. -/
def whole (positive : Bool) (significand : Nat) : Number :=
  if positive then .natural significand
  else if significand = 0 ∨ 9223372036854775808 < significand then
    .float (-Float.ofNat significand)
  else .negative significand

/-- What follows the digits before the point; `dropped` of them did not fit the significand. -/
def afterInteger (positive : Bool) (significand dropped : Nat) : Reader Number := do
  let c ← peek
  if c == some '.' then return .float (← fractionPart positive significand dropped)
  if isExponentMark c then return .float (← exponentPart positive significand dropped)
  if dropped = 0 then return whole positive significand
  return .float (← floatOf positive significand dropped)

def unsigned (positive : Bool) : Reader Number := do
  match ← peek with
  | none => failHere .endInValue
  | some '0' =>
    advance
    match ← peek with
    | some c => if isNumeral c then failAhead .invalidNumber else afterInteger positive 0 0
    | none => afterInteger positive 0 0
  | some c =>
    if isNumeral c then
      let digits ← takeWhile isNumeral
      let (value, count) := gather maxSignificand 0 0 digits
      afterInteger positive value (digits.length - count)
    else failAhead .invalidNumber

def number (first : Char) : Reader Number :=
  if first = '-' then do
    advance
    unsigned false
  else unsigned true

def isNumberStart (c : Char) : Bool :=
  c == '-' || isNumeral c

def skipExponent : Reader Unit := do
  advance
  match ← peek with
  | some '+' => advance
  | some '-' => advance
  | _ => pure ()
  match ← peek with
  | none => failHere .invalidNumber
  | some c => if isNumeral c then pure () else failAhead .invalidNumber
  let _ ← takeWhile isNumeral

def skipFraction : Reader Unit := do
  advance
  let digits ← takeWhile isNumeral
  if digits.isEmpty then failAhead .invalidNumber
  if isExponentMark (← peek) then skipExponent

def skipUnsigned : Reader Unit := do
  match ← peek with
  | none => failHere .invalidNumber
  | some c =>
    if !isNumeral c then failAhead .invalidNumber
    if c = '0' then
      advance
      if ((← peek).map isNumeral).getD false then failAhead .invalidNumber
    else
      let _ ← takeWhile isNumeral
  let c ← peek
  if c == some '.' then skipFraction
  else if isExponentMark c then skipExponent

end Reader
end LatticeKinetics.Json
