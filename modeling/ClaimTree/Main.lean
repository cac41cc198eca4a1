import ClaimTree.Program

open ClaimTree

namespace ClaimTree.Main

/-- The fault behind an error of the system. -/
def faultOf : IO.Error → FileError
  | .noFileOrDirectory .. => .notFound
  | .inappropriateType _ 21 _ => .isADirectory
  | .inappropriateType .. => .notADirectory
  | .resourceBusy .. => .busy
  | .invalidArgument .. => .tooLong
  | _ => .refused

def attempt {α : Type} (action : IO α) : IO (Except FileError α) := do
  try return .ok (← action)
  catch e => return .error (faultOf e)

/-- Does something with the file that a path names. -/
def attemptAt {α : Type} (path : String) (action : IO α) : IO (Except FileError α) := do
  match Files.checkPath path with
  | .error cause => return .error cause
  | .ok _ => attempt action

/-- Replaces a file by way of one that waits beside it. -/
def writeAtomic (path : String) (contents : ByteArray) : ExceptT WriteError IO Unit := do
  let some name := Files.fileName? path | throw .noFileName
  let waiting := Files.waitingPath path name
  let file ← .mk do
    return (← attemptAt waiting (IO.FS.Handle.mk waiting .write)).mapError (.create waiting)
  .mk do return (← attempt (file.write contents)).mapError (.write waiting)
  .mk do return (← attempt file.flush).mapError .flush
  .mk do return (← attemptAt path (IO.FS.rename waiting path)).mapError (.move path)

/-- Events and failures go to the error stream. -/
def reportEvent (e : Event) : IO Unit :=
  let values := e.values.map fun (key, text) => s!" {key}={text}"
  IO.eprintln (s!"{e.level.name} {e.message}" ++ String.join values)

def wording : OuterFault → String
  | .document .truncated => "the document ends too early"
  | .document .malformed => "the document is not well-formed"
  | .document .mistyped => "a value is missing, repeated or of the wrong kind"
  | .file .notFound => "not found"
  | .file .notADirectory => "not a directory"
  | .file .isADirectory => "is a directory"
  | .file .invalidData => "not UTF-8"
  | .file .busy => "busy"
  | .file .tooLong => "name too long"
  | .file .nulInPath => "NUL in a path"
  | .file .refused => "refused by the system"

def reportFailure (e : CommandError) : IO UInt32 := do
  let texts := e.chain.map fun
    | .message text => text
    | .quoting text fault => text ++ wording fault
    | .fault fault => wording fault
  IO.eprintln ("ERROR " ++ ": ".intercalate texts)
  return 1

/-- Carries the steps of a command out. -/
def perform {α : Type} : Command α → IO (Except CommandError α)
  | .done result => return result
  | .log event rest => do
    reportEvent event
    perform rest
  | .read path rest => do
    perform (rest (← attemptAt path (IO.FS.readBinFile path)))
  | .write path contents rest => do
    perform (rest (← (writeAtomic path contents).run))

def runTask (task : Task) : IO UInt32 := do
  match ← perform task.command with
  | .error e => reportFailure e
  | .ok text =>
    IO.print text
    return 0

/-- The file of variables in the working directory, or else in the nearest one above it. -/
def readVariablesFile : IO (Option ByteArray) := do
  let depth := (← IO.currentDir).components.length
  for n in List.range depth do
    let path := String.join (List.replicate n "../") ++ variablesFile
    if let .ok contents ← attemptAt path (IO.FS.readBinFile path) then return some contents
  return none

/-- The variables that the program looks at, first those that are set and then those of the
file. -/
def environment : IO (Except CommandLine.VariableError CommandLine.Variables) := do
  let names := CommandLine.Verb.all.flatMap fun verb =>
    verb.switches.filterMap fun switch => switch.variableName? verb
  let set ← names.eraseDups.filterMapM fun name => do
    return (← IO.getEnv name).map (name, ·)
  match ← readVariablesFile with
  | some contents => return CommandLine.addFile set contents
  | none => return .ok set

def usage : String :=
  "usage: batch root | batch dump | claim export | schema | help\n" ++
    "  --input FILE  --version v1|v2  --allow-root-mismatch  --out FILE  --index N | --all"

/-- Carries out what the arguments ask for. -/
def runArguments (environment : CommandLine.Variables) (args : List String) : IO UInt32 := do
  match CommandLine.parse environment args with
  | .error e =>
    if e = .help then IO.println usage else IO.eprintln usage
    return e.exitCode.toUInt32
  | .ok request =>
    match Action.ofRequest request with
    | .error e => reportFailure e
    | .ok (.print text) =>
      IO.print text
      return 0
    | .ok (.task task) => runTask task

end ClaimTree.Main

def main (args : List String) : IO UInt32 := do
  match ← Main.environment with
  | .error (.nulInValue name) =>
    IO.eprintln s!"the value of {name} contains a NUL"
    return (CommandLine.VariableError.nulInValue name).exitCode.toUInt32
  | .ok environment => Main.runArguments environment args
