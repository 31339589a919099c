import LatticeKinetics.Command.Run

/-! The program itself: the real disk and the terminal behind the commands. -/

namespace LatticeKinetics.RealDisk

/-- The fault with this number. Some operations report the number with its sign changed. -/
def faultNumbered? (code : UInt32) : Option FileFault :=
  match (if code < 0x80000000 then code else 0 - code).toNat with
  | 2 => some .notFound
  | 17 => some .alreadyExists
  | 20 => some .notADirectory
  | 21 => some .isADirectory
  | 36 => some .nameTooLong
  | 39 => some .notEmpty
  | _ => none

def codeOf? : IO.Error → Option UInt32
  | .noFileOrDirectory _ code _ => some code
  | .alreadyExists _ code _ => some code
  | .inappropriateType _ code _ => some code
  | .invalidArgument _ code _ => some code
  | .unsatisfiedConstraints code _ => some code
  | _ => none

def faultOf (e : IO.Error) : FileFault :=
  ((codeOf? e).bind faultNumbered?).getD (.other (toString e))

def attempt {α : Type} (action : IO α) : IO (Except FileFault α) := do
  match ← action.toBaseIO with
  | .ok value => pure (.ok value)
  | .error e => pure (.error (faultOf e))

def kindOf : IO.FS.FileType → FileKind
  | .file => .regular
  | _ => .other

def status (p : Pathname) : IO (Option FileKind) := do
  match ← attempt do (← IO.FS.realPath p.render).metadata with
  | .ok data => pure (some (kindOf data.type))
  | .error _ => pure none

def isDirectory (p : Pathname) : IO Bool := do
  match ← attempt do (← IO.FS.realPath p.render).isDir with
  | .ok found => pure found
  | .error _ => pure false

/-- Without a terminal the answer is no. -/
def confirm (p : Pathname) : IO Bool := do
  let input ← IO.getStdin
  let errors ← IO.getStderr
  if (← input.isTty) && (← errors.isTty) then
    errors.putStr s!"{p.render} already exists. Overwrite? [y/N] "
    errors.flush
    pure (isYes (← input.getLine))
  else pure false

def warn (w : DeliveryWarning) : IO Unit :=
  match w with
  | .overwriting path => IO.eprintln s!"warning: {w.message}: {path.render}"
  | .notRestored path fault =>
    IO.eprintln s!"warning: {w.message}: {path.render}: {fault.message}"

def disk : Disk IO where
  status := status
  isDirectory := isDirectory
  read p := attempt (IO.FS.readFile p.render)
  write p text := attempt (IO.FS.writeFile p.render text)
  makeDirectory p := attempt (IO.FS.createDir p.render)
  rename source target := attempt (IO.FS.rename source.render target.render)
  remove p := attempt (IO.FS.removeFile p.render)
  confirm := confirm
  warn := warn

end LatticeKinetics.RealDisk

open LatticeKinetics in
def main (arguments : List String) : IO UInt32 := do
  match ← execute RealDisk.disk arguments with
  | .misused cause =>
    IO.eprintln s!"error: {cause.message}"
    IO.eprint usageText
    pure 2
  | .finished exit output errors =>
    IO.print output
    IO.eprint errors
    pure exit.toUInt32
