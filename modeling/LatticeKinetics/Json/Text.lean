import LatticeKinetics.Json.Cursor

/-! Strings. An escape may name a character beyond the basic plane only as a complete pair of
surrogates. A string that is skipped is held to its escapes but not to its surrogates. -/

namespace LatticeKinetics.Json.Reader

def hexDigit? (c : Char) : Option Nat :=
  if '0' ≤ c ∧ c ≤ '9' then some (c.toNat - 48)
  else if 'a' ≤ c ∧ c ≤ 'f' then some (c.toNat - 87)
  else if 'A' ≤ c ∧ c ≤ 'F' then some (c.toNat - 55)
  else none

def hexWord : Reader Nat := do
  let c ← get
  if Text.byteLength (c.rest.take 4) < 4 then
    let (line, column) := Cursor.placeAfter 4 c.rest c.line c.column
    throw ⟨.endInText, line, column⟩
  match c.rest.take 4 |>.mapM hexDigit? with
  | some [a, b, d, e] =>
    set (c.skipWhile (fun _ => true) 4)
    pure (((a * 16 + b) * 16 + d) * 16 + e)
  | _ =>
    let (line, column) := Cursor.placeAfter 4 c.rest c.line c.column
    throw ⟨.invalidEscape, line, column⟩

def simpleEscape? : Char → Option Char
  | '"' => some '"'
  | '\\' => some '\\'
  | '/' => some '/'
  | 'b' => some '\x08'
  | 'f' => some '\x0c'
  | 'n' => some '\n'
  | 'r' => some '\r'
  | 't' => some '\t'
  | _ => none

def pairChar (expected : Char) : Reader Unit := do
  match ← peek with
  | none => failHere .endInText
  | some c => if c = expected then advance else failAhead .brokenSurrogatePair

def unicodeEscape : Reader Char := do
  let high ← hexWord
  if 0xDC00 ≤ high ∧ high ≤ 0xDFFF then failHere .loneSurrogate
  else if high < 0xD800 ∨ 0xDBFF < high then pure (Char.ofNat high)
  else do
    pairChar '\\'
    pairChar 'u'
    let low ← hexWord
    if low < 0xDC00 ∨ 0xDFFF < low then failHere .loneSurrogate
    else pure (Char.ofNat ((high - 0xD800) * 1024 + (low - 0xDC00) + 0x10000))

def escape : Reader Char := do
  match ← peek with
  | none => failHere .endInText
  | some 'u' =>
    advance
    unicodeEscape
  | some c =>
    match simpleEscape? c with
    | some d =>
      advance
      pure d
    | none => failAhead .invalidEscape

/-- What follows the opening quote, read in reverse. -/
def textBody : Nat → List Char → Reader String
  | 0, _ => failHere .endInText
  | fuel + 1, taken => do
    match ← peek with
    | none => failHere .endInText
    | some '"' =>
      advance
      pure (String.ofList taken.reverse)
    | some '\\' =>
      advance
      let c ← escape
      textBody fuel (c :: taken)
    | some c =>
      if c.toNat < 32 then failAhead .controlCharacter
      else
        advance
        textBody fuel (c :: taken)

def quoted : Reader String := do
  advance
  let c ← get
  textBody (c.rest.length + 1) []

def skipEscape : Reader Unit := do
  match ← peek with
  | none => failHere .endInText
  | some 'u' =>
    advance
    let _ ← hexWord
  | some c => if (simpleEscape? c).isSome then advance else failAhead .invalidEscape

def skipTextBody : Nat → Reader Unit
  | 0 => failHere .endInText
  | fuel + 1 => do
    match ← peek with
    | none => failHere .endInText
    | some '"' => advance
    | some '\\' =>
      advance
      skipEscape
      skipTextBody fuel
    | some c =>
      if c.toNat < 32 then failHere .controlCharacter
      else
        advance
        skipTextBody fuel

def skipQuoted : Reader Unit := do
  advance
  let c ← get
  skipTextBody (c.rest.length + 1)

end LatticeKinetics.Json.Reader
