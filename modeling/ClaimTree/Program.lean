import ClaimTree.CommandLine.Parse
import ClaimTree.CommandLine.Variables
import ClaimTree.Schema

namespace ClaimTree

/-- What is left to do for a request: print a text, or carry a task out. -/
inductive Action
  | print (text : String)
  | task (task : Task)

def Action.ofRequest : CommandLine.Request → Except CommandError Action
  | .schema => .ok (.print Schema.listing)
  | .batchRoot config => .ok (.task (.root config))
  | .batchDump config out => .ok (.task (.dump config out))
  | .claimExport config index all out => do
    let selection ← Selection.ofOptions index all
    return .task (.exportClaims config selection out)

/-- How a run of the program ends. -/
structure Run where
  exitCode : Nat
  printed : String

namespace Run

def ofResult : Except CommandError String → Run
  | .ok text => ⟨0, text⟩
  | .error _ => ⟨1, ""⟩

end Run

/-- The file from which variables are taken that are not set. -/
def variablesFile : String := ".env"

/-- Carries out what the arguments ask for. -/
def runArguments (fs : Files) (environment : CommandLine.Variables) (args : List String) :
    Files × Run :=
  match CommandLine.parse environment args with
  | .error e => (fs, ⟨e.exitCode, ""⟩)
  | .ok request =>
    match Action.ofRequest request with
    | .error cause => (fs, .ofResult (.error cause))
    | .ok (.print text) => (fs, .ofResult (.ok text))
    | .ok (.task task) =>
      let (fs, outcome) := task.run fs
      (fs, .ofResult outcome.result)

/-- Runs the program in a working directory. The file of variables comes before the arguments. -/
def runProgram (fs : Files) (environment : CommandLine.Variables) (args : List String) :
    Files × Run :=
  let complete := match fs.read variablesFile with
    | .ok contents => CommandLine.addFile environment contents
    | .error _ => .ok environment
  match complete with
  | .error e => (fs, ⟨e.exitCode, ""⟩)
  | .ok environment => runArguments fs environment args

end ClaimTree
