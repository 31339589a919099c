import LatticeKinetics.Pattern.Cursor

/-! What a backslash introduces: characters by number or by letter, classes, and assertions about
the place in the text. -/

namespace LatticeKinetics.Pattern.Parser

def hexValue? (c : Char) : Option Nat :=
  if '0' ≤ c ∧ c ≤ '9' then some (c.toNat - 48)
  else if 'a' ≤ c ∧ c ≤ 'f' then some (c.toNat - 87)
  else if 'A' ≤ c ∧ c ≤ 'F' then some (c.toNat - 55)
  else none

/-- A number that is a character: surrogates are not. -/
def scalar? (n : Nat) : Option Char :=
  if n < 0xD800 ∨ (0xDFFF < n ∧ n < 0x110000) then some (Char.ofNat n) else none

def hexDigits : Nat → Nat → Parser Nat
  | 0, value => pure value
  | n + 1, value => do
    match ← next? with
    | none => failAt (← point) .escapeUnexpectedEnd
    | some c =>
      match hexValue? c with
      | none => failAt (← charSpan c) .hexDigit
      | some d => do
        let _ ← step
        hexDigits n (value * 16 + d)

def hexInBraces : Parser (Span × Nat) := do
  let brace ← here
  let start := brace.after '\x7b'
  let _ ← step
  let digits ← collectWhile fun c => (hexValue? c).isSome
  let stop ← here
  match ← next? with
  | none => failAt (← since brace) .escapeUnexpectedEnd
  | some c =>
    if c ≠ '\x7d' then failAt (← charSpan c) .hexDigit
    else do
      let _ ← step
      if digits.isEmpty then failAt (← since brace) .hexEmpty
      else pure (⟨start, stop⟩, digits.foldl (fun n c => n * 16 + (hexValue? c).getD 0) 0)

def hexWidth (letter : Char) : Nat :=
  if letter = 'x' then 2 else if letter = 'u' then 4 else 8

def numberEscape (start : Position) (letter : Char) : Parser Term := do
  match ← step with
  | none => failAt (← point) .escapeUnexpectedEnd
  | some c =>
    let first ← here
    let (span, value) ←
      if c = '\x7b' then hexInBraces
      else do
        let value ← hexDigits (hexWidth letter) 0
        pure (← since first, value)
    match scalar? value with
    | none => failAt span .hexNotScalar
    | some found =>
      pure (.literal ⟨← since start, found, letter == 'x' && c != '\x7b'⟩)

def propertyEscape (start : Position) : Parser Term := do
  match ← step with
  | none => failAt (← point) .escapeUnexpectedEnd
  | some '\x7b' => do
    let _ ← step
    let name ← collectWhile (· ≠ '\x7d')
    match ← next? with
    | none => failAt (← point) .escapeUnexpectedEnd
    | some _ => do
      bump
      pure (.property ⟨← since start, .named (String.ofList name)⟩)
  | some c =>
    if c = '\\' then failAt (← charSpan c) .propertyInvalid
    else do
      let _ ← step
      pure (.property ⟨← since start, .letter c⟩)

def isWordEdgeLetter (c : Char) : Bool :=
  ('A' ≤ c && c ≤ 'Z') || ('a' ≤ c && c ≤ 'z') || c == '-'

/-- A special word edge, if the brace ahead does not open a counted repetition. -/
def wordEdgeInBraces (start : Position) : Parser Unit := do
  let before ← get
  let brace ← here
  match ← step with
  | none => failAt (← since start) .wordEdgeUnexpectedEnd
  | some c =>
    if !isWordEdgeLetter c then set before
    else do
      let contents ← here
      let name ← collectWhile isWordEdgeLetter
      let stop ← here
      if (← next?) ≠ some '\x7d' then failAt (← since brace) .wordEdgeUnclosed
      else do
        bump
        if ["start", "end", "start-half", "end-half"].contains (String.ofList name) then pure ()
        else failAt ⟨contents, stop⟩ .wordEdgeUnrecognized

def wordEdge (start : Position) : Parser Term := do
  if (← next?) = some '\x7b' then wordEdgeInBraces start
  pure (.wordEdge (← since start))

/-- ASCII characters other than letters, digits and angle brackets stand for themselves. -/
def isEscapable (c : Char) : Bool :=
  c.toNat < 128 && !c.isAlphanum && c != '<' && c != '>'

def letterEscape? : Char → Option Char
  | 'a' => some '\x07'
  | 'f' => some '\x0c'
  | 't' => some '\t'
  | 'n' => some '\n'
  | 'r' => some '\r'
  | 'v' => some '\x0b'
  | _ => none

def plainEscape (start : Position) (c : Char) : Parser Term := do
  bump
  let span ← since start
  if isEscapable c then pure (.literal { span, char := c })
  else
    match letterEscape? c with
    | some found => pure (.literal { span, char := found })
    | none =>
      if c = 'A' ∨ c = 'z' then pure (.edge span)
      else if c = 'b' then wordEdge start
      else if c = 'B' ∨ c = '<' ∨ c = '>' then pure (.wordEdge span)
      else failAt span .escapeUnrecognized

def escape : Parser Term := do
  let start ← here
  bump
  match ← next? with
  | none => failAt (← since start) .escapeUnexpectedEnd
  | some c =>
    if c.isDigit then failAt ⟨start, (← charSpan c).stop⟩ .backreference
    else if c = 'x' ∨ c = 'u' ∨ c = 'U' then numberEscape start c
    else if c = 'p' ∨ c = 'P' then propertyEscape start
    else if c = 'd' ∨ c = 's' ∨ c = 'w' ∨ c = 'D' ∨ c = 'S' ∨ c = 'W' then do
      bump
      pure (.shorthand ⟨← since start, c.isUpper⟩)
    else plainEscape start c

end LatticeKinetics.Pattern.Parser
