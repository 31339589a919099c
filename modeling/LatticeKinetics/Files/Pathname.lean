/-! Path names as text: segments with slashes between them. Empty segments and single dots are kept,
since a path is printed as it was given. -/

namespace LatticeKinetics

structure Pathname where
  segments : List String
deriving DecidableEq, Repr, Inhabited

namespace Pathname

def ofText (text : String) : Pathname :=
  ⟨(text.toList.splitOn '/').map String.ofList⟩

def render (p : Pathname) : String :=
  "/".intercalate p.segments

def isEmpty (p : Pathname) : Bool :=
  p.segments.all (·.isEmpty) && p.segments.length ≤ 1

def isAbsolute (p : Pathname) : Bool :=
  p.segments.head? == some "" && 1 < p.segments.length

def isIdle (segment : String) : Bool :=
  segment == "" || segment == "."

/-- Without the idle segments at the end; the first segment always counts. -/
def trimmed : List String → List String
  | [] => []
  | first :: rest => first :: (rest.reverse.dropWhile isIdle).reverse

/-- Inside the directory `p`. A slash at the end of `p` is not doubled. -/
def join (p : Pathname) (name : String) : Pathname :=
  if p.segments.getLast? = some "" then ⟨p.segments.dropLast ++ [name]⟩
  else ⟨p.segments ++ [name]⟩

def name (p : Pathname) : String :=
  p.segments.getLast?.getD ""

def sibling (p : Pathname) (name : String) : Pathname :=
  ⟨trimmed p.segments.dropLast ++ [name]⟩

def parent (p : Pathname) : Pathname :=
  ⟨trimmed (trimmed p.segments).dropLast⟩

end Pathname
end LatticeKinetics
