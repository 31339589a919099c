import LatticeKinetics.Files.Disk
import LatticeKinetics.Output.Sources

/-! Writing both sources to disk. All questions are settled before any file is touched. Each text is
first staged in a sibling of its target; then the targets that are there already are set aside, and
the staged files take their places. A failure on the way removes what is new and brings back what
was set aside. -/

namespace LatticeKinetics

structure Target where
  path : Pathname
  text : String
deriving DecidableEq, Repr

def Settings.targets (s : Settings) (sources : Sources) : List Target :=
  [⟨s.latticePath, sources.lattice⟩, ⟨s.proclistPath, sources.proclist⟩]

def Pathname.staging (p : Pathname) : Pathname :=
  p.sibling s!"{p.name}.partial"

def Pathname.backup (p : Pathname) : Pathname :=
  p.sibling s!"{p.name}.backup"

theorem Pathname.length_trimmed_le (segments : List String) :
    (Pathname.trimmed segments).length ≤ segments.length := by
  cases segments with
  | nil => simp [Pathname.trimmed]
  | cons first rest =>
    simp only [Pathname.trimmed, List.length_cons, List.length_reverse, Nat.add_le_add_iff_right]
    simpa using (List.dropWhile_sublist Pathname.isIdle (l := rest.reverse)).length_le

theorem Pathname.length_parent_lt {p : Pathname} (h : p.isEmpty = false) :
    p.parent.segments.length < p.segments.length := by
  have hp : p.segments ≠ [] := by
    intro hnil
    simp [Pathname.isEmpty, hnil] at h
  have h₁ := Pathname.length_trimmed_le (Pathname.trimmed p.segments).dropLast
  have h₂ := Pathname.length_trimmed_le p.segments
  have h₃ : 0 < p.segments.length := List.length_pos_iff.2 hp
  simp only [Pathname.parent, List.length_dropLast] at h₁ ⊢
  omega

section

variable {m : Type → Type} [Monad m]

namespace Disk

/-- Turn a failed attempt to make a directory into success if the directory is there. -/
def settle (disk : Disk m) (p : Pathname) : Except FileFault Unit → m (Except FileFault Unit)
  | .ok _ => pure (.ok ())
  | .error fault => do
    if ← disk.isDirectory p then pure (.ok ()) else pure (.error fault)

def makeDirectories (disk : Disk m) (p : Pathname) : m (Except FileFault Unit) :=
  if _h : p.isEmpty then pure (.ok ())
  else do
    match ← disk.makeDirectory p with
    | .error .notFound =>
      match ← disk.makeDirectories p.parent with
      | .error fault => pure (.error fault)
      | .ok _ => disk.settle p (← disk.makeDirectory p)
    | outcome => disk.settle p outcome
termination_by p.segments.length
decreasing_by exact Pathname.length_parent_lt (by simpa using _h)

def removeAll (disk : Disk m) : List Pathname → m Unit
  | [] => pure ()
  | p :: ps => do
    let _ ← disk.remove p
    disk.removeAll ps

end Disk

namespace Delivery

/-- A target that is there must be a regular file that may be overwritten. -/
def checkTarget (disk : Disk m) (overwrite : Overwrite) (path : Pathname) :
    m (Except OutputError Unit) := do
  match ← disk.status path with
  | none => pure (.ok ())
  | some .other => pure (.error (.file path .notRegular))
  | some .regular =>
    match overwrite with
    | .force => do
      disk.warn (.overwriting path)
      pure (.ok ())
    | .refuse => do
      if ← disk.confirm path then pure (.ok ()) else pure (.error (.conflict path))

def checkTargets (disk : Disk m) (overwrite : Overwrite) :
    List Target → m (Except OutputError Unit)
  | [] => pure (.ok ())
  | t :: ts => do
    match ← checkTarget disk overwrite t.path with
    | .error e => pure (.error e)
    | .ok _ => checkTargets disk overwrite ts

/-- Write all texts to their staging files. `staged` are the targets whose texts are written. -/
def stage (disk : Disk m) (staged : List Pathname) :
    List Target → m (Except OutputError Unit)
  | [] => pure (.ok ())
  | t :: ts => do
    match ← disk.write t.path.staging t.text with
    | .ok _ => stage disk (staged ++ [t.path]) ts
    | .error fault => do
      disk.removeAll (t.path.staging :: staged.map (·.staging))
      pure (.error (.file t.path.staging fault))

def restore (disk : Disk m) : List Pathname → m Unit
  | [] => pure ()
  | p :: ps => do
    match ← disk.rename p.backup p with
    | .ok _ => pure ()
    | .error fault => disk.warn (.notRestored p fault)
    restore disk ps

/-- Undo: drop the installed and the staged files, then bring back what was set aside. -/
def rollBack (disk : Disk m) (paths installed saved : List Pathname) : m Unit := do
  disk.removeAll installed
  disk.removeAll (paths.map (·.staging))
  restore disk saved

def setAside (disk : Disk m) (paths saved : List Pathname) :
    List Pathname → m (Except OutputError (List Pathname))
  | [] => pure (.ok saved)
  | p :: ps => do
    match ← disk.status p with
    | none => setAside disk paths saved ps
    | some _ =>
      match ← disk.rename p p.backup with
      | .ok _ => setAside disk paths (saved ++ [p]) ps
      | .error fault => do
        rollBack disk paths [] saved
        pure (.error (.file p fault))

def install (disk : Disk m) (paths saved installed : List Pathname) :
    List Pathname → m (Except OutputError Unit)
  | [] => pure (.ok ())
  | p :: ps => do
    match ← disk.rename p.staging p with
    | .ok _ => install disk paths saved (installed ++ [p]) ps
    | .error fault => do
      rollBack disk paths installed saved
      pure (.error (.file p fault))

def replace (disk : Disk m) (paths : List Pathname) : m (Except OutputError Unit) := do
  match ← setAside disk paths [] paths with
  | .error e => pure (.error e)
  | .ok saved =>
    match ← install disk paths saved [] paths with
    | .error e => pure (.error e)
    | .ok _ => do
      disk.removeAll (saved.map (·.backup))
      pure (.ok ())

end Delivery

open Delivery in
def Sources.deliver (sources : Sources) (disk : Disk m) (s : Settings) :
    m (Except OutputError (List Pathname)) := do
  match s.validate with
  | .error cause => pure (.error (.settings cause))
  | .ok _ =>
    let targets := s.targets sources
    match ← checkTargets disk s.overwrite targets with
    | .error e => pure (.error e)
    | .ok _ =>
      match ← disk.makeDirectories s.outputDir with
      | .error fault => pure (.error (.file s.outputDir fault))
      | .ok _ =>
        match ← stage disk [] targets with
        | .error e => pure (.error e)
        | .ok _ =>
          match ← replace disk (targets.map (·.path)) with
          | .error e => pure (.error e)
          | .ok _ => pure (.ok (targets.map (·.path)))

structure Built where
  plan : Plan
  paths : List Pathname

def Model.buildSources (model : Model) (s : Settings) : Except OutputError (Plan × Sources) := do
  let plan ← model.compile.mapError .compile
  let sources ← model.generate plan s
  pure (plan, sources)

def Model.build (model : Model) (disk : Disk m) (s : Settings) : m (Except OutputError Built) :=
  match model.buildSources s with
  | .error e => pure (.error e)
  | .ok (plan, sources) => do
    match ← sources.deliver disk s with
    | .error e => pure (.error e)
    | .ok paths => pure (.ok { plan, paths })

end

end LatticeKinetics
