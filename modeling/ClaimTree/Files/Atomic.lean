import ClaimTree.Files.Basic

namespace ClaimTree

/-- A step in which a system lets a write down, although nothing is wrong with the paths. -/
inductive WriteFault
  | create (cause : FileError)
  /-- No more than the first `arrived` bytes get into the file. -/
  | write (arrived : Nat) (cause : FileError)
  /-- The bytes were taken, but no more than the first `arrived` get into the file. -/
  | flush (arrived : Nat) (cause : FileError)
  /-- All bytes are in the file, but may not last. -/
  | sync (cause : FileError)
  | move (cause : FileError)
deriving DecidableEq

namespace WriteFault

def onCreate? : WriteFault → Option FileError
  | .create cause => some cause
  | _ => none

def onMove? : WriteFault → Option FileError
  | .move cause => some cause
  | _ => none

end WriteFault

inductive WriteError
  | noFileName
  | create (path : String) (cause : FileError)
  | write (path : String) (cause : FileError)
  | flush (cause : FileError)
  | sync (cause : FileError)
  | move (path : String) (cause : FileError)
deriving DecidableEq

namespace Files

/-- Where the contents of a file wait before they replace it. -/
def waitingPath (path name : String) : String := sibling path (name ++ ".tmp")

/-- An operation, unless the system refuses it. -/
def unlessRefused {α : Type} (refusal : Option FileError) (operation : Except FileError α) :
    Except FileError α :=
  match refusal with
  | some cause => .error cause
  | none => operation

/-- Fills the file at `place`, which `path` leads to, until a fault breaks off. -/
def fill (fs : Files) (place : Place) (path : String) (contents : ByteArray)
    (fault : Option WriteFault) : Files × Except WriteError Unit :=
  match fault with
  | some (.write arrived cause) =>
    (fs.put place (.file (contents.extract 0 arrived)), .error (.write path cause))
  | some (.flush arrived cause) =>
    (fs.put place (.file (contents.extract 0 arrived)), .error (.flush cause))
  | some (.sync cause) => (fs.put place (.file contents), .error (.sync cause))
  | _ => (fs.put place (.file contents), .ok ())

/-- Replaces a file as a whole: the contents go into a file beside it, which is then moved over it.
A reader never finds a part of them. After a failure they stay where they waited, as far as they
got. -/
def writeAtomic (fs : Files) (path : String) (contents : ByteArray)
    (fault : Option WriteFault := none) : Files × Except WriteError Unit :=
  match fileName? path with
  | none => (fs, .error .noFileName)
  | some name =>
    let waiting := waitingPath path name
    match unlessRefused (fault.bind (·.onCreate?)) (fs.create waiting) with
    | .error cause => (fs, .error (.create waiting cause))
    | .ok (fs, place) =>
      match fs.fill place waiting contents fault with
      | (fs, .error e) => (fs, .error e)
      | (fs, .ok _) =>
        match unlessRefused (fault.bind (·.onMove?)) (fs.move waiting path) with
        | .error cause => (fs, .error (.move path cause))
        | .ok fs => (fs, .ok ())

end Files

end ClaimTree
