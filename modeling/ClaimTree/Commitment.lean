import ClaimTree.Capacity
import ClaimTree.Record.Basic

namespace ClaimTree

structure Commitment where
  version : LeafVersion
  claims : List Claim
  tree : Tree
deriving DecidableEq

namespace Commitment

def commit (version : LeafVersion) (claims : List Claim) (capacity : Nat) :
    Except TreeError Commitment := do
  let leaves ← version.paddedLeaves claims capacity
  let tree ← Tree.ofLeaves leaves
  return { version, claims, tree }

def root (k : Commitment) : Node := k.tree.root

/-- The record of a claim; slots that hold padding have none. -/
def record (k : Commitment) (index : Nat) : Except TreeError ClaimRecord :=
  match k.claims[index]? with
  | some claim => k.tree.record claim index k.version
  | none => .error (.indexOutOfRange index k.claims.length)

/-- The records of all claims, in the order of the batch. -/
def records (k : Commitment) : Except TreeError (List ClaimRecord) :=
  (List.range k.claims.length).mapM k.record

end Commitment

end ClaimTree
