import ClaimTree.Command.Event
import ClaimTree.Command.Failure
import ClaimTree.Commitment
import ClaimTree.Record.Document
import ClaimTree.Tree.Dump

namespace ClaimTree

/-- The events up to the end of a computation, and how it ends. -/
structure Logged (α : Type) where
  events : List Event
  result : Except CommandError α

namespace Logged

def log (event : Event) : Logged Unit := ⟨[event], .ok ()⟩

/-- A result whose failure is put down to `cause`. -/
def of {ε α : Type} (cause : ε → CommandError) (x : Except ε α) : Logged α :=
  ⟨[], x.mapError cause⟩

/-- The same with earlier events in front. -/
def after {α : Type} (events : List Event) (x : Logged α) : Logged α :=
  { x with events := events ++ x.events }

end Logged

/-- Where a system lets a command down that reads one file and replaces another. -/
inductive CommandFault
  | read (cause : FileError)
  | write (fault : WriteFault)
deriving DecidableEq

namespace CommandFault

def onRead? : CommandFault → Option FileError
  | .read cause => some cause
  | .write _ => none

def onWrite? : CommandFault → Option WriteFault
  | .read _ => none
  | .write fault => some fault

end CommandFault

/-- The steps of a command up to its end. How it goes on depends on what reading or writing a file
comes to. -/
inductive Command (α : Type)
  | done (result : Except CommandError α)
  | log (event : Event) (rest : Command α)
  | read (path : String) (rest : Except FileError ByteArray → Command α)
  | write (path : String) (contents : ByteArray) (rest : Except WriteError Unit → Command α)

namespace Command

/-- The steps of the first command and, if it succeeds, those of the second one. -/
def bind {α β : Type} (x : Command α) (f : α → Command β) : Command β :=
  match x with
  | .done (.ok a) => f a
  | .done (.error e) => .done (.error e)
  | .log event rest => .log event (rest.bind f)
  | .read path rest => .read path fun contents => (rest contents).bind f
  | .write path contents rest => .write path contents fun written => (rest written).bind f

instance : Monad Command where
  pure a := .done (.ok a)
  bind := bind

/-- The events one by one, and then the end. -/
def ofLogged {α : Type} (x : Logged α) : Command α := x.events.foldr .log (.done x.result)

instance : MonadLift Logged Command where
  monadLift := ofLogged

def contents (path : String) : Command (Except FileError ByteArray) :=
  .read path fun contents => .done (.ok contents)

/-- Replaces a file by one that holds the text. -/
def put (path text : String) : Command Unit :=
  .write path text.toUTF8 fun written => .done (written.mapError .write)

/-- Carries the steps out over files, which a fault may keep from being read or written. -/
def run {α : Type} (x : Command α) (fs : Files) (fault : Option CommandFault := none) :
    Files × Logged α :=
  match x with
  | .done result => (fs, ⟨[], result⟩)
  | .log event rest =>
    let ended := rest.run fs fault
    (ended.1, ended.2.after [event])
  | .read path rest =>
    (rest (Files.unlessRefused (fault.bind (·.onRead?)) (fs.read path))).run fs fault
  | .write path contents rest =>
    let attempt := fs.writeAtomic path contents (fault.bind (·.onWrite?))
    (rest attempt.2).run attempt.1 fault

end Command

structure Config where
  input : String
  version : LeafVersion
  /-- Go on with a warning when the declared root is not the computed one. -/
  allowRootMismatch : Bool
deriving DecidableEq

/-- Which claims are exported: one as an object, or all as an array. -/
inductive Selection
  | one (index : Nat)
  | all
deriving DecidableEq

def Selection.ofOptions : (index : Option Nat) → (all : Bool) → Except CommandError Selection
  | some index, false => .ok (.one index)
  | none, true => .ok .all
  | _, _ => .error .selection

def checkRoot (declared computed : Node) (allowMismatch : Bool) : Logged Unit :=
  if declared = computed then .log (.rootMatches computed)
  else if allowMismatch then .log (.rootDiffers declared computed)
  else .of id (.error (.rootMismatch declared computed))

/-- The commitment to the batch in the input file. -/
def loadCommitment (config : Config) : Command Commitment := do
  let contents ← Command.contents config.input
  let batch ← Logged.of .load (Batch.ofContents config.input contents)
  Logged.log (.loaded batch.claims.length batch.capacity)
  let commitment ←
    Logged.of .commit (Commitment.commit config.version batch.claims batch.capacity)
  Logged.log (.treeBuilt commitment.tree.depth)
  checkRoot batch.declaredRoot commitment.root config.allowRootMismatch
  return commitment

/-- What a program can be asked to do with a batch. -/
inductive Task
  | root (config : Config)
  | dump (config : Config) (out : String)
  | exportClaims (config : Config) (selection : Selection) (out : String)
deriving DecidableEq

namespace Task

/-- The steps of a task; the text is what is printed in the end. -/
def command : Task → Command String
  | root config => do
    let commitment ← loadCommitment config
    Logged.log (.rootComputed commitment.root)
    return commitment.root.text ++ "\n"
  | dump config out => do
    let commitment ← loadCommitment config
    Command.put out commitment.tree.dump
    Logged.log (.dumpWritten commitment.tree.layers.length)
    return ""
  | exportClaims config (.one index) out => do
    let commitment ← loadCommitment config
    let record ← Logged.of (.exportClaim index) (commitment.record index)
    Command.put out (record.toJson.text .pretty)
    Logged.log (.recordWritten index record.receiver)
    return ""
  | exportClaims config .all out => do
    let commitment ← loadCommitment config
    let records ← Logged.of .exportClaims commitment.records
    let document := Json.array (records.map (·.toJson))
    Command.put out (document.text .pretty)
    Logged.log (.recordsWritten records.length)
    return ""

/-- Carries a task out. -/
def run (task : Task) (fs : Files) (fault : Option CommandFault := none) : Files × Logged String :=
  task.command.run fs fault

end Task

end ClaimTree
