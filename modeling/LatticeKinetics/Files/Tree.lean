import LatticeKinetics.Files.Pathname

/-! A tree of files and directories held in memory, with the operations of a file system on it. All
is seen from the working directory; outside of it there is only what these operations put there.
There are no links: two names of different spelling in one directory are two entries, and where a
path leads follows from its text. -/

namespace LatticeKinetics

inductive FileFault where
  | notFound
  | alreadyExists
  | notADirectory
  | isADirectory
  | notEmpty
  | nameTooLong
  /-- A target that is there already must be a regular file. -/
  | notRegular
  | zeroInName
  | other (description : String)
deriving DecidableEq, Repr

def FileFault.message : FileFault → String
  | .notFound => "No such file or directory (os error 2)"
  | .alreadyExists => "File exists (os error 17)"
  | .notADirectory => "Not a directory (os error 20)"
  | .isADirectory => "Is a directory (os error 21)"
  | .notEmpty => "Directory not empty (os error 39)"
  | .nameTooLong => "File name too long (os error 36)"
  | .notRegular => "output target exists and is not a regular file"
  | .zeroInName => "file name contained an unexpected NUL byte"
  | .other description => description

inductive Entry where
  | file (text : String)
  | directory
deriving DecidableEq, Repr

/-- The names on the way from the working directory. A way that leads out of it begins with two
dots, and one from the top of the file system with a slash. -/
abbrev Place :=
  List String

namespace Place

def top : Place :=
  ["/"]

def isUpward (place : Place) : Bool :=
  place.all (· == "..")

/-- The top is its own parent. -/
def parent (place : Place) : Place :=
  if place = top then top
  else if isUpward place then place ++ [".."]
  else place.dropLast

def isInside (place : Place) : Bool :=
  place.head? != some ".." && place.head? != some "/"

end Place

structure FileTree where
  entries : List (Place × Entry)
deriving DecidableEq, Repr, Inhabited

namespace FileTree

def empty : FileTree :=
  ⟨[]⟩

/-- The top, the working directory and those above it are always there. -/
def entryAt (t : FileTree) (place : Place) : Option Entry :=
  if place = Place.top ∨ Place.isUpward place then some .directory else t.entries.lookup place

def contents (t : FileTree) : List (Place × Entry) :=
  t.entries.filter fun e => Place.isInside e.1

def erase (t : FileTree) (place : Place) : FileTree :=
  ⟨t.entries.filter fun e => e.1 ≠ place⟩

def insert (t : FileTree) (place : Place) (entry : Entry) : FileTree :=
  ⟨(t.erase place).entries ++ [(place, entry)]⟩

def move (t : FileTree) (source target : Place) : FileTree :=
  ⟨(t.erase target).entries.map fun (place, entry) =>
    if source <+: place then (target ++ place.drop source.length, entry) else (place, entry)⟩

def hasEntriesBelow (t : FileTree) (place : Place) : Bool :=
  t.entries.any fun e => place.isPrefixOf e.1 && e.1 != place

def enter (t : FileTree) (place : Place) : Except FileFault Unit :=
  match t.entryAt place with
  | some .directory => .ok ()
  | some (.file _) => .error .notADirectory
  | none => .error .notFound

def follow (place : Place) (segment : String) : Place :=
  if Pathname.isIdle segment then place
  else if segment = ".." then Place.parent place
  else place ++ [segment]

/-- The longest name in a directory, in bytes. -/
def nameLimit : Nat :=
  255

def pathLimit : Nat :=
  4095

def walk (t : FileTree) (place : Place) : List String → Except FileFault Place
  | [] => .ok place
  | segment :: rest => do
    t.enter place
    if nameLimit < segment.utf8ByteSize then throw .nameTooLong
    t.walk (follow place segment) rest

def checkPath (p : Pathname) : Except FileFault Unit :=
  if p.isEmpty then .error .notFound
  else if p.segments.any (·.toList.contains '\x00') then .error .zeroInName
  else if pathLimit < p.render.utf8ByteSize then .error .nameTooLong
  else .ok ()

def origin (p : Pathname) : Place :=
  if p.isAbsolute then Place.top else []

def locate (t : FileTree) (p : Pathname) : Except FileFault Place := do
  checkPath p
  t.walk (origin p) p.segments

def find (t : FileTree) (p : Pathname) : Except FileFault (Place × Entry) := do
  let place ← t.locate p
  match t.entryAt place with
  | some entry => pure (place, entry)
  | none => throw .notFound

def read (t : FileTree) (p : Pathname) : Except FileFault String := do
  match (← t.find p).2 with
  | .file text => pure text
  | .directory => throw .isADirectory

def write (t : FileTree) (p : Pathname) (text : String) : Except FileFault FileTree := do
  let place ← t.locate p
  match t.entryAt place with
  | some .directory => throw .isADirectory
  | _ => pure (t.insert place (.file text))

/-- A slash at the end of the new directory's path is left out of account. -/
def makeDirectory (t : FileTree) (p : Pathname) : Except FileFault FileTree := do
  checkPath p
  let place ← t.walk (origin p) (p.segments.reverse.dropWhile (·.isEmpty)).reverse
  match t.entryAt place with
  | some _ => throw .alreadyExists
  | none => pure (t.insert place .directory)

def rename (t : FileTree) (source target : Pathname) : Except FileFault FileTree := do
  let (origin, moved) ← t.find source
  let place ← t.locate target
  if place = origin then return t
  match moved, t.entryAt place with
  | .file _, some .directory => throw .isADirectory
  | .directory, some (.file _) => throw .notADirectory
  | .directory, some .directory =>
    if t.hasEntriesBelow place then throw .notEmpty else pure (t.move origin place)
  | _, _ => pure (t.move origin place)

def remove (t : FileTree) (p : Pathname) : Except FileFault FileTree := do
  let (place, entry) ← t.find p
  match entry with
  | .directory => throw .isADirectory
  | .file _ => pure (t.erase place)

def plant (t : FileTree) (p : Pathname) (entry : Entry) : FileTree :=
  let place := p.segments.foldl follow (origin p)
  let parents := (List.range place.length).map place.take
  let t := parents.foldl (fun t p => if t.entryAt p = none then t.insert p .directory else t) t
  t.insert place entry

end FileTree
end LatticeKinetics
