import ClaimTree.Leaf
import ClaimTree.Tree.Basic

namespace ClaimTree

structure ClaimRecord where
  grantId : Option Uint256
  root : Node
  siblings : List Node
  orientation : Orientation
  nullifierHash : Uint256
  receiver : Address
  leafIndex : UInt64
deriving DecidableEq

namespace ClaimRecord

/-- The claim that the record is about. -/
def claim (r : ClaimRecord) : Claim := ⟨r.grantId, r.receiver, r.nullifierHash⟩

/-- The path that the record writes down. -/
def path (r : ClaimRecord) : Path := Path.zip r.siblings (r.orientation.flags r.siblings.length)

end ClaimRecord

/-- The record of a claim at a leaf, made only if the leaf is that of the claim. -/
def Tree.record (t : Tree) (claim : Claim) (index : Nat) (version : LeafVersion) :
    Except TreeError ClaimRecord := do
  let path ← t.path index
  let leaf ← (version.leaf claim).mapError (.invalidClaim index)
  if (← t.leaf index) = leaf then
    let orientation ← path.orientation
    return {
      grantId := claim.grantId
      root := t.root
      siblings := path.siblings
      orientation
      nullifierHash := claim.nullifierHash
      receiver := claim.receiver
      leafIndex := UInt64.ofNat index }
  else .error (.leafMismatch index)

end ClaimTree
