import LatticeKinetics.Json.Number
import LatticeKinetics.Json.Text

/-! Values of unknown fields are skipped at any depth, and only their grammar is checked. -/

namespace LatticeKinetics.Json.Reader

inductive Frame where
  | list
  | object
deriving DecidableEq, Repr

def Frame.close : Frame → Char
  | .list => ']'
  | .object => '\x7d'

def Frame.expectedEnd : Frame → Cause
  | .list => .expectedListEnd
  | .object => .expectedObjectEnd

def Frame.endInside : Frame → Cause
  | .list => .endInList
  | .object => .endInObject

def skipScalarOrOpen : Reader (Option Frame) := do
  match ← peekPastSpace with
  | none => failAhead .endInValue
  | some 'n' => advance; word "ull".toList; pure none
  | some 't' => advance; word "rue".toList; pure none
  | some 'f' => advance; word "alse".toList; pure none
  | some '"' => skipQuoted; pure none
  | some '[' => advance; pure (some .list)
  | some '\x7b' => advance; pure (some .object)
  | some '-' => advance; skipUnsigned; pure none
  | some c =>
    if Text.isNumeral c then
      skipUnsigned
      pure none
    else failAhead .expectedValue

def skipKey : Reader Unit := do
  match ← peekPastSpace with
  | some '"' => skipQuoted
  | some _ => failAhead .expectedKey
  | none => failAhead .endInObject
  match ← peekPastSpace with
  | some ':' => advance
  | some _ => failAhead .expectedColon
  | none => failAhead .endInObject

/-- Close frames for as long as their ends come. A comma leads on only behind a value. The frames
that stay open are returned; none are left when the skipped value is complete. -/
def closeFrames : Nat → Bool → List Frame → Reader (List Frame)
  | _, _, [] => pure []
  | 0, _, frames => pure frames
  | fuel + 1, afterValue, frame :: outer => do
    match ← peekPastSpace with
    | none => failAhead frame.endInside
    | some c =>
      if c = ',' ∧ afterValue = true then
        advance
        pure (frame :: outer)
      else if c = frame.close then
        advance
        closeFrames fuel true outer
      else if afterValue then failAhead frame.expectedEnd
      else pure (frame :: outer)

def skipFrom : Nat → List Frame → Reader Unit
  | 0, _ => failHere .endInValue
  | fuel + 1, frames => do
    let opened ← skipScalarOrOpen
    let frames ← closeFrames (frames.length + 2) opened.isNone (opened.toList ++ frames)
    match frames with
    | [] => pure ()
    | .object :: _ =>
      skipKey
      skipFrom fuel frames
    | .list :: _ => skipFrom fuel frames

def skipValue : Reader Unit := do
  let c ← get
  skipFrom (c.rest.length + 1) []

end LatticeKinetics.Json.Reader
