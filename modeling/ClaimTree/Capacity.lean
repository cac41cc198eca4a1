import ClaimTree.Leaf

namespace ClaimTree

namespace Capacity

/-- How often a number other than zero can be halved. -/
def halvings (n : Nat) : Nat :=
  if n ≠ 0 ∧ n % 2 = 0 then halvings (n / 2) + 1 else 0
termination_by n

/-- The deepest tree whose paths can be written down. -/
def maxDepth : Nat := 32

/-- Judges a capacity by the layer at which a tree of so many leaves could not be paired, before
anything is hashed. -/
def check (claims capacity : Nat) : Except TreeError Unit :=
  let depth := halvings capacity
  let top := capacity >>> depth
  if capacity < claims then .error (.capacityTooSmall claims capacity)
  else if capacity = 0 then .error .noLeaves
  else if top ≠ 1 then .error (.unpairedLayer depth top)
  else if maxDepth < depth then .error (.pathTooLong depth)
  else .ok ()

end Capacity

namespace LeafVersion

/-- Appends padding leaves up to the capacity. -/
def pad (version : LeafVersion) (leaves : List Node) (capacity : Nat) :
    Except TreeError (List Node) := do
  Capacity.check leaves.length capacity
  return leaves ++ List.replicate (capacity - leaves.length) version.paddingLeaf

/-- The leaves of the claims, the first one at place `start`. -/
def leavesFrom (version : LeafVersion) : (start : Nat) → List Claim → Except TreeError (List Node)
  | _, [] => .ok []
  | start, claim :: claims => do
    let leaf ← (version.leaf claim).mapError (.invalidClaim start)
    let leaves ← version.leavesFrom (start + 1) claims
    return leaf :: leaves

/-- The leaves of the claims, then padding leaves up to the capacity. -/
def paddedLeaves (version : LeafVersion) (claims : List Claim) (capacity : Nat) :
    Except TreeError (List Node) := do
  Capacity.check claims.length capacity
  let leaves ← version.leavesFrom 0 claims
  version.pad leaves capacity

end LeafVersion

end ClaimTree
