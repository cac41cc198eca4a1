import ClaimTree.Batch.Input
import ClaimTree.Claim
import ClaimTree.ClaimError
import ClaimTree.Node

namespace ClaimTree

/-- Why a described batch is refused. -/
inductive BatchError
  | countMismatch (declared actual : Nat)
  | declaredRoot (cause : FieldError)
  | claims (cause : TreeError)
deriving DecidableEq

def BatchError.message : BatchError → String
  | .countMismatch declared actual => s!"Batch declares {declared} claims but contains {actual}"
  | .declaredRoot cause => s!"Invalid declared root: {cause.message}"
  | .claims cause => cause.message

structure Batch where
  declaredRoot : Node
  capacity : Nat
  claims : List Claim
deriving DecidableEq

namespace ClaimInput

/-- The grant text of the claim, or else that of its batch. -/
def grantText (c : ClaimInput) (batchGrant : Option String) : Option String :=
  c.grantId.or batchGrant

def parse (c : ClaimInput) (batchGrant : Option String) : Except FieldError Claim :=
  Claim.parse (c.grantText batchGrant) c.receiver c.nullifierHash

end ClaimInput

namespace BatchInput

/-- Reads the claims in order, the first one at place `start`. -/
def parseFrom (batchGrant : Option String) : (start : Nat) → List ClaimInput →
    Except TreeError (List Claim)
  | _, [] => .ok []
  | start, c :: cs => do
    let claim ← (c.parse batchGrant).mapError fun cause => .invalidClaim start (.field cause)
    let claims ← parseFrom batchGrant (start + 1) cs
    return claim :: claims

def parseClaims (b : BatchInput) : Except TreeError (List Claim) := parseFrom b.grantId 0 b.claims

/-- Reads all texts: the number of claims is judged first, then the root, then the claims. -/
def toBatch (b : BatchInput) : Except BatchError Batch := do
  if b.claimCount.toNat = b.claims.length then
    let root ← (Uint256.parse b.root).mapError .declaredRoot
    let claims ← b.parseClaims.mapError .claims
    return { declaredRoot := Node.ofUint256 root, capacity := b.capacity.toNat, claims }
  else .error (.countMismatch b.claimCount.toNat b.claims.length)

end BatchInput

end ClaimTree
