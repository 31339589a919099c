import LatticeKinetics.Files.Tree

/-! What delivery needs from its surroundings: a file system, someone to ask, someone to warn. All
of it is one record, so that delivery runs on a real disk and on a tree in memory alike. -/

namespace LatticeKinetics

inductive FileKind where
  | regular
  | other
deriving DecidableEq, Repr

def Entry.kind : Entry → FileKind
  | .file _ => .regular
  | .directory => .other

inductive DeliveryWarning where
  | overwriting (path : Pathname)
  | notRestored (path : Pathname) (fault : FileFault)
deriving DecidableEq, Repr

def DeliveryWarning.message : DeliveryWarning → String
  | .overwriting _ => "overwriting existing file"
  | .notRestored .. => "could not restore previous file"

structure Disk (m : Type → Type) where
  status : Pathname → m (Option FileKind)
  isDirectory : Pathname → m Bool
  read : Pathname → m (Except FileFault String)
  write : Pathname → String → m (Except FileFault Unit)
  makeDirectory : Pathname → m (Except FileFault Unit)
  rename : Pathname → Pathname → m (Except FileFault Unit)
  remove : Pathname → m (Except FileFault Unit)
  confirm : Pathname → m Bool
  warn : DeliveryWarning → m Unit

/-- A tree in memory, with the answers to give when asked, and a record of what was asked and said.
-/
structure Session where
  tree : FileTree
  replies : List Bool := []
  asked : List Pathname := []
  warnings : List DeliveryWarning := []
deriving DecidableEq, Repr

namespace Session

def onTree (operation : FileTree → Except FileFault FileTree) :
    StateM Session (Except FileFault Unit) := fun s =>
  match operation s.tree with
  | .ok tree => (.ok (), { s with tree })
  | .error fault => (.error fault, s)

/-- Who has run out of answers says no. -/
def disk : Disk (StateM Session) where
  status p := fun s => (((s.tree.find p).toOption.map (·.2.kind)), s)
  isDirectory p := fun s => ((s.tree.find p).toOption.any (·.2 == .directory), s)
  read p := fun s => (s.tree.read p, s)
  write p text := onTree (·.write p text)
  makeDirectory p := onTree (·.makeDirectory p)
  rename source target := onTree (·.rename source target)
  remove p := onTree (·.remove p)
  confirm p := fun s =>
    (s.replies.head?.getD false, { s with replies := s.replies.tail, asked := s.asked ++ [p] })
  warn w := fun s => ((), { s with warnings := s.warnings ++ [w] })

end Session
end LatticeKinetics
