import ClaimTree.Batch.Basic
import ClaimTree.Files.Basic

namespace ClaimTree

/-- Why no batch can be had from the file at a path. -/
inductive LoadError
  | file (path : String) (cause : FileError)
  | document (path : String) (fault : Json.Fault)
  | batch (cause : BatchError)
deriving DecidableEq

namespace Batch

def ofText (path text : String) : Except LoadError Batch := do
  let input ← (BatchInput.ofText text).mapError (.document path)
  input.toBatch.mapError .batch

/-- The batch that a file holds, given what reading the file came to. -/
def ofContents (path : String) (contents : Except FileError ByteArray) :
    Except LoadError Batch := do
  let bytes ← contents.mapError (.file path)
  match String.fromUTF8? bytes with
  | some text => ofText path text
  | none => .error (.file path .invalidData)

end Batch

end ClaimTree
