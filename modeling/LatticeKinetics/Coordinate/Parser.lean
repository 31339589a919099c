import LatticeKinetics.Coordinate.Basic
import LatticeKinetics.Text.Character
import LatticeKinetics.Text.Number

/-! Coordinates are written `site.(dx,dy,dz)` with an optional `.layer` behind. One to three
components may be given. Missing ones are zero, and those beyond the lattice dimension must be. -/

namespace LatticeKinetics.Coordinate

open Text

inductive ParseError where
  | malformed (input : String)
  | invalidComponent (input component : String)
  | excessAxis (input : String) (axis : Nat) (value : Int) (dimension : Nat)
deriving DecidableEq, Repr

def ParseError.message : ParseError → String
  | .malformed input =>
    s!"malformed coordinate '{input}': expected 'site.(dx,dy,dz)' with an optional '.layer' suffix"
  | .invalidComponent input component =>
    s!"malformed coordinate '{input}': offset component '{component}' is not an integer"
  | .excessAxis input axis value dimension =>
    s!"malformed coordinate '{input}': non-zero offset {value} on axis {axis} " ++
      s!"of a {dimension}D model"

def scanName : List Char → Option (List Char × List Char)
  | [] => none
  | c :: cs =>
    if isNameStart c then some (c :: cs.takeWhile isNameChar, cs.dropWhile isNameChar) else none

def scanChar (expected : Char) : List Char → Option (List Char)
  | [] => none
  | c :: cs => if c = expected then some cs else none

def isBodyChar (c : Char) : Bool :=
  c != '(' && c != ')'

structure Shape where
  site : List Char
  body : List Char
  layer : Option (List Char)
deriving DecidableEq, Repr

/-- What may follow the closing parenthesis: nothing, or a dot and a layer name. -/
def scanLayer (cs : List Char) : Option (Option (List Char)) :=
  match trimLeft cs with
  | [] => some none
  | rest => do
    let afterDot ← scanChar '.' rest
    let (layer, rest) ← scanName (trimLeft afterDot)
    if (trimLeft rest).isEmpty then some (some layer) else none

def scanShape (cs : List Char) : Option Shape := do
  let (site, rest) ← scanName (trimLeft cs)
  let rest ← scanChar '.' (trimLeft rest)
  let rest ← scanChar '(' (trimLeft rest)
  let body := rest.takeWhile isBodyChar
  let rest ← scanChar ')' (rest.dropWhile isBodyChar)
  let layer ← scanLayer rest
  pure { site, body, layer }

def pieces (body : List Char) : List (List Char) :=
  (body.splitOn ',').map trim

def readComponents (input : String) : List (List Char) → Except ParseError (List Int)
  | [] => .ok []
  | p :: ps =>
    match readWord32? p with
    | none => .error (.invalidComponent input (String.ofList p))
    | some n => do
      let ns ← readComponents input ps
      pure (n :: ns)

def excess? (dimension : Nat) (full : List Int) : Option (Int × Nat) :=
  full.zipIdx.find? fun (value, axis) => decide (dimension ≤ axis) && value != 0

def parse (input : String) (dimension : Nat) (defaultLayer : String) :
    Except ParseError Coordinate :=
  match scanShape input.toList with
  | none => .error (.malformed input)
  | some shape =>
    let parts := pieces shape.body
    if 3 < parts.length then .error (.malformed input)
    else do
      let values ← readComponents input parts
      let full := values ++ List.replicate (3 - values.length) 0
      match excess? dimension full with
      | some (value, axis) => .error (.excessAxis input axis value dimension)
      | none =>
        pure {
          offset := full.take dimension
          site := String.ofList shape.site
          layer := (shape.layer.map String.ofList).getD defaultLayer }

end LatticeKinetics.Coordinate
