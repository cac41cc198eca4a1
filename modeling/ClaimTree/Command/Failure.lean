import ClaimTree.Batch.Load
import ClaimTree.Files.Atomic

namespace ClaimTree

/-- Why a command fails. -/
inductive CommandError
  | load (cause : LoadError)
  | commit (cause : TreeError)
  | rootMismatch (declared computed : Node)
  | selection
  | exportClaim (index : Nat) (cause : TreeError)
  | exportClaims (cause : TreeError)
  | write (cause : WriteError)
deriving DecidableEq

/-- A fault outside this library, which has words of its own for it. -/
inductive OuterFault
  | document (fault : Json.Fault)
  | file (error : FileError)
deriving DecidableEq

/-- A link in a chain of causes, from the outermost inwards. -/
inductive Cause
  | message (text : String)
  /-- A message that ends in the words for a fault. -/
  | quoting (text : String) (fault : OuterFault)
  | fault (fault : OuterFault)
deriving DecidableEq

def TreeError.chain (e : TreeError) : List Cause :=
  match e with
  | .invalidClaim _ cause => [.message e.message, .message cause.message]
  | _ => [.message e.message]

def BatchError.chain (e : BatchError) : List Cause :=
  match e with
  | .declaredRoot cause => [.message e.message, .message cause.message]
  | .claims cause => cause.chain
  | .countMismatch .. => [.message e.message]

def LoadError.chain : LoadError → List Cause
  | .file path error =>
    [.quoting s!"Failed to read claim batch {path}: " (.file error), .fault (.file error)]
  | .document path fault =>
    [.quoting s!"Failed to parse claim batch {path}: " (.document fault),
      .fault (.document fault)]
  | .batch cause => cause.chain

def WriteError.chain : WriteError → List Cause
  | .noFileName => [.message "Output path has no file name"]
  | .create path cause => [.message s!"Failed to create {path}", .fault (.file cause)]
  | .write path cause => [.message s!"Failed to write {path}", .fault (.file cause)]
  | .flush cause => [.fault (.file cause)]
  | .sync cause => [.fault (.file cause)]
  | .move path cause => [.message s!"Failed to move output into {path}", .fault (.file cause)]

def CommandError.chain : CommandError → List Cause
  | .load cause => .message "Failed to load claim batch" :: cause.chain
  | .commit cause => .message "Failed to commit claim batch" :: cause.chain
  | .rootMismatch declared computed =>
    [.message s!"root mismatch: declared {declared.text}, computed {computed.text}"]
  | .selection => [.message "Exactly one of --index or --all must be given"]
  | .exportClaim index cause => .message s!"Failed to export claim {index}" :: cause.chain
  | .exportClaims cause => .message "Failed to export claims" :: cause.chain
  | .write cause => cause.chain

end ClaimTree
