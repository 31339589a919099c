import LatticeKinetics.Text.Character
import LatticeKinetics.Text.Number

/-! Free-form source text. Code is a list of lines, each with the depth at which it stands. A
statement that is too long is broken at spaces: its pieces end in an ampersand and continue behind
one. Comments are never broken. -/

namespace LatticeKinetics.Fortran

open Text

/-- The most bytes a line of a broken statement may have. -/
def maxLine : Nat := 100

inductive Content where
  | statement (text : String)
  | comment (text : String)
  | blank
deriving DecidableEq, Repr

structure Line where
  level : Nat
  content : Content
deriving DecidableEq, Repr

abbrev Code :=
  List Line

namespace Code

def statement (text : String) : Code :=
  [⟨0, .statement text⟩]

def statements (texts : List String) : Code :=
  texts.map fun text => ⟨0, .statement text⟩

def comment (text : String) : Code :=
  [⟨0, .comment text⟩]

def blank : Code :=
  [⟨0, .blank⟩]

def indent (code : Code) : Code :=
  code.map fun line => { line with level := line.level + 1 }

def indentBy (depth : Nat) (code : Code) : Code :=
  code.map fun line => { line with level := line.level + depth }

def block (opening closing : String) (body : Code) : Code :=
  statement opening ++ body.indent ++ statement closing

end Code

def spaces (count : Nat) : List Char :=
  List.replicate count ' '

def window : Nat → List Char → List Char
  | _, [] => []
  | room, c :: cs => if c.utf8Size ≤ room then c :: window (room - c.utf8Size) cs else []

def lastSpace? (cs : List Char) : Option Nat :=
  (cs.reverse.findIdx? (· == ' ')).map fun i => cs.length - 1 - i

/-- Where to break a text that must fit into `room` bytes: at the last space within them, unless
that is the very first character. -/
def breakAt? (room : Nat) (cs : List Char) : Option Nat :=
  if byteLength cs ≤ room then none
  else (lastSpace? (window room cs)).filter (0 < ·)

theorem lastSpace?_lt {cs : List Char} {i : Nat} (h : lastSpace? cs = some i) : i < cs.length := by
  obtain ⟨j, hj, rfl⟩ := Option.map_eq_some_iff.1 h
  have : j < cs.reverse.length := (List.findIdx?_eq_some_iff_getElem.1 hj).1
  simp only [List.length_reverse] at this
  omega

theorem window_length_le (room : Nat) (cs : List Char) : (window room cs).length ≤ cs.length := by
  induction cs generalizing room with
  | nil => simp [window]
  | cons c cs ih =>
    simp only [window]
    split
    · have := ih (room - c.utf8Size)
      simp only [List.length_cons]
      omega
    · simp

theorem breakAt?_lt {room : Nat} {cs : List Char} {i : Nat} (h : breakAt? room cs = some i) :
    i < cs.length := by
  unfold breakAt? at h
  split at h
  · simp at h
  · obtain ⟨hi, -⟩ := Option.filter_eq_some_iff.1 h
    exact Nat.lt_of_lt_of_le (lastSpace?_lt hi) (window_length_le room cs)

/-- Two bytes of each broken line are for its ampersand. -/
def roomAfter (lead : List Char) : Nat :=
  maxLine - (lead.length + 2)

def breakStatement (lead continued cs : List Char) : List (List Char) :=
  match _h : breakAt? (roomAfter lead) cs with
  | none => [lead ++ cs]
  | some i =>
    (lead ++ cs.take i ++ [' ', '&']) :: breakStatement continued continued (cs.drop (i + 1))
termination_by cs.length
decreasing_by
  have := breakAt?_lt _h
  simp only [List.length_drop]
  omega

/-- Split at line ends, which are a line feed or a carriage return with one. The text behind the
last of them is a line only if there is any. -/
def splitLines (cs : List Char) : List (List Char) :=
  let parts := cs.splitOn '\n'
  let ended := parts.dropLast.map fun part =>
    if part.getLast? = some '\r' then part.dropLast else part
  ended ++ (parts.getLast?.toList.filter (!·.isEmpty))

def commentLine (lead cs : List Char) : List Char :=
  if cs.isEmpty then lead ++ ['!'] else lead ++ ['!', ' '] ++ trimRight cs

def Line.physical (width : Nat) (line : Line) : List (List Char) :=
  let lead := spaces (width * line.level)
  match line.content with
  | .statement text =>
    breakStatement lead (lead ++ spaces width ++ ['&', ' ']) (trimRight text.toList)
  | .comment text => (splitLines text.toList).map (commentLine lead)
  | .blank => [[]]

def Code.render (width : Nat) (code : Code) : String :=
  String.join ((code.flatMap (·.physical width)).map fun line => String.ofList (line ++ ['\n']))

end LatticeKinetics.Fortran
