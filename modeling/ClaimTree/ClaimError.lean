import ClaimTree.FieldError

namespace ClaimTree

inductive ClaimError
  | field (cause : FieldError)
  | missingGrant
deriving DecidableEq

def ClaimError.message : ClaimError → String
  | .field cause => cause.message
  | .missingGrant => "Missing grant id, required by v2 leaves"

/-- What stops a batch from being committed or a record from being made. -/
inductive TreeError
  | invalidClaim (index : Nat) (cause : ClaimError)
  | capacityTooSmall (claims capacity : Nat)
  | unpairedLayer (layer size : Nat)
  | indexOutOfRange (index size : Nat)
  | pathTooLong (levels : Nat)
  | noLeaves
  | leafMismatch (index : Nat)
deriving DecidableEq

def TreeError.message : TreeError → String
  | .invalidClaim index cause => s!"Invalid claim at index {index}: {cause.message}"
  | .capacityTooSmall claims capacity =>
    s!"Capacity {capacity} is smaller than the {claims} real claims"
  | .unpairedLayer layer size =>
    s!"Layer {layer} has {size} nodes and cannot be paired; " ++
      "batch capacity must be a power of two"
  | .indexOutOfRange index size => s!"Index {index} is out of range for {size} entries"
  | .pathTooLong levels => s!"Proof has {levels} levels, at most 32 can be encoded"
  | .noLeaves => "Cannot build a tree from zero leaves"
  | .leafMismatch index => s!"Claim does not match the leaf at index {index}"

end ClaimTree
