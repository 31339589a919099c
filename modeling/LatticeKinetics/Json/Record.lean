import LatticeKinetics.Json.Skip
import LatticeKinetics.Lattice.Basic

/-! Typed values. A record may be written as an object, in any order and with unknown fields in
between, or as a list of its fields in their declared order. -/

namespace LatticeKinetics.Json.Reader

variable {α β σ : Type}

def misfitHere (what : Misfit) : Reader α :=
  failHere (.misfit what)

/-- Take the value at hand, which is not of the `expected` kind, and fail. Lists and objects are not
entered. -/
def refuse (expected : String) : Reader α := do
  match ← peek with
  | some 'n' =>
    advance
    word "ull".toList
    misfitHere (.wrongType .null expected)
  | some 't' =>
    advance
    word "rue".toList
    misfitHere (.wrongType (.boolean true) expected)
  | some 'f' =>
    advance
    word "alse".toList
    misfitHere (.wrongType (.boolean false) expected)
  | some '"' =>
    let s ← quoted
    misfitHere (.wrongType (.text s) expected)
  | some '[' => misfitHere (.wrongType .list expected)
  | some '\x7b' => misfitHere (.wrongType .object expected)
  | some c =>
    if isNumberStart c then
      let n ← number c
      misfitHere (.wrongType n.found expected)
    else failAhead .expectedValue
  | none => failAhead .expectedValue

def valueStarting (expected : String) (starts : Char → Bool) (read : Char → Reader α) :
    Reader α := do
  match ← peekPastSpace with
  | none => failAhead .endInValue
  | some c => if starts c then read c else refuse expected

def text : Reader String :=
  valueStarting "a string" (· == '"') fun _ => quoted

def boolean : Reader Bool :=
  valueStarting "a boolean" (fun c => c == 't' || c == 'f') fun c => do
    advance
    if c = 't' then
      word "rue".toList
      pure true
    else
      word "alse".toList
      pure false

def float : Reader Float :=
  valueStarting "f64" isNumberStart fun c => return (← number c).toFloat

def integer (expected : String) (fits : Int → Bool) : Reader Int :=
  valueStarting expected isNumberStart fun c => do
    match ← number c with
    | .float x => misfitHere (.wrongType (.float x) expected)
    | n@(.natural v) => if fits v then pure v else misfitHere (.wrongValue n.found expected)
    | n@(.negative v) =>
      if fits (-(v : Int)) then pure (-(v : Int)) else misfitHere (.wrongValue n.found expected)

def natural : Reader Nat :=
  Int.toNat <$> integer "usize" (0 ≤ ·)

def word32 : Reader Int :=
  integer "i32" Text.fitsWord32

def optional (value : Reader α) : Reader (Option α) := do
  match ← peekPastSpace with
  | some 'n' =>
    advance
    word "ull".toList
    pure none
  | _ => some <$> value

def hasNextElement (first : Bool) : Reader Bool := do
  match ← peekPastSpace with
  | none => failAhead .endInList
  | some ']' => pure false
  | some c =>
    if first then pure true
    else if c = ',' then
      advance
      match ← peekPastSpace with
      | some ']' => failAhead .trailingComma
      | some _ => pure true
      | none => failAhead .endInValue
    else failAhead .expectedListEnd

def endList : Reader Unit := do
  match ← peekPastSpace with
  | some ']' => advance
  | some ',' =>
    advance
    match ← peekPastSpace with
    | some ']' => failAhead .trailingComma
    | _ => failAhead .trailingCharacters
  | some _ => failAhead .trailingCharacters
  | none => failAhead .endInList

/-- A list that ends too early is taken up to its end before it is refused. -/
def tooShort (found : Nat) (expected : String) : Reader α := do
  match ← peekPastSpace with
  | some ']' => advance
  | _ => pure ()
  misfitHere (.wrongLength found expected)

def elements (element : Reader α) : Nat → Bool → List α → Reader (List α)
  | 0, _, taken => pure taken.reverse
  | fuel + 1, first, taken => do
    if ← hasNextElement first then
      let a ← element
      elements element fuel false (a :: taken)
    else pure taken.reverse

def listOf (element : Reader α) : Reader (List α) :=
  valueStarting "a sequence" (· == '[') fun _ => do
    advance
    let c ← get
    let members ← elements element (c.rest.length + 1) true []
    endList
    pure members

def fixedElement (expected : String) (position : Nat) (element : Reader α) : Reader α := do
  if ← hasNextElement (position == 0) then element else tooShort position expected

def triple (element : Reader α) : Reader (Triple α) :=
  let expected := "an array of length 3"
  valueStarting expected (· == '[') fun _ => do
    advance
    let x ← fixedElement expected 0 element
    let y ← fixedElement expected 1 element
    let z ← fixedElement expected 2 element
    endList
    pure ⟨x, y, z⟩

structure Field (σ : Type) where
  name : String
  required : Bool
  read : σ → Reader σ

def Field.needed (name : String) (value : Reader α) (store : σ → α → σ) : Field σ :=
  ⟨name, true, fun s => store s <$> value⟩

/-- A field that keeps its initial value if it is not given. -/
def Field.spare (name : String) (value : Reader α) (store : σ → α → σ) : Field σ :=
  ⟨name, false, fun s => store s <$> value⟩

def hasNextKey (first : Bool) : Reader Bool := do
  match ← peekPastSpace with
  | none => failAhead .endInObject
  | some '\x7d' => pure false
  | some c =>
    if first then if c = '"' then pure true else failAhead .expectedKey
    else if c = ',' then
      advance
      match ← peekPastSpace with
      | some '"' => pure true
      | some '\x7d' => failAhead .trailingComma
      | some _ => failAhead .expectedKey
      | none => failAhead .endInValue
    else failAhead .expectedObjectEnd

def colon : Reader Unit := do
  match ← peekPastSpace with
  | some ':' => advance
  | some _ => failAhead .expectedColon
  | none => failAhead .endInObject

/-- An object that is refused is taken up to its end if that comes next. -/
def refuseObject (what : Misfit) : Reader α := do
  match ← peekPastSpace with
  | some '\x7d' => advance
  | _ => pure ()
  misfitHere what

def members (fields : List (Field σ)) : Nat → Bool → List String → σ → Reader σ
  | 0, _, _, s => pure s
  | fuel + 1, first, seen, s => do
    if ← hasNextKey first then
      let key ← quoted
      match fields.find? (·.name == key) with
      | none =>
        colon
        skipValue
        members fields fuel false seen s
      | some field =>
        if key ∈ seen then refuseObject (.repeatedField key)
        else
          colon
          let s ← field.read s
          members fields fuel false (key :: seen) s
    else
      match fields.find? fun f => f.required && !seen.contains f.name with
      | some field => refuseObject (.missingField field.name)
      | none =>
        advance
        pure s

/-- The fields of a record written as a list. -/
def positional (expected : String) : Nat → List (Field σ) → σ → Reader σ
  | _, [], s => do
    endList
    pure s
  | position, field :: fields, s => do
    if ← hasNextElement (position == 0) then
      let s ← field.read s
      positional expected (position + 1) fields s
    else if field.required then tooShort position expected
    else positional expected (position + 1) fields s

def record (name : String) (fields : List (Field σ)) (init : σ) : Reader σ := do
  match ← peekPastSpace with
  | none => failAhead .endInValue
  | some '[' =>
    advance
    positional s!"{name} with {fields.length} elements" 0 fields init
  | some '\x7b' =>
    advance
    let c ← get
    members fields (c.rest.length + 1) true [] init
  | some _ => refuse name

def alone (value : Reader α) : Reader α := do
  let a ← value
  match ← peekPastSpace with
  | some _ => failAhead .trailingCharacters
  | none => pure a

def readAll (value : Reader α) (input : String) : Except ReadError α := do
  let (a, _) ← StateT.run (alone value) (Cursor.start input)
  pure a

end LatticeKinetics.Json.Reader
