import ClaimTree.Json.Shape
import ClaimTree.Json.Value

namespace ClaimTree

structure ClaimInput where
  grantId : Option String
  receiver : String
  nullifierHash : String
  /-- Carried along and never looked at. -/
  proof : List String
deriving DecidableEq

structure BatchInput where
  /-- The grant of every claim that names none itself. -/
  grantId : Option String
  root : String
  claimCount : UInt64
  capacity : UInt64
  claims : List ClaimInput
deriving DecidableEq

/-- A member of an object that is left out when it holds nothing. -/
def Json.optional (key : String) (v : Option Json) : List (String × Json) :=
  (v.map (key, ·)).toList

namespace ClaimInput

structure Draft where
  grantId : Option (Option String) := none
  receiver : Option String := none
  nullifierHash : Option String := none
  proof : Option (List String) := none

open Json in
def shape : Shape Draft ClaimInput where
  blank := {}
  fields := [
    .ofSlot "grant_id" (·.grantId) (fun d a => { d with grantId := some a })
      (readOption readString),
    .ofSlot "receiver" (·.receiver) (fun d a => { d with receiver := some a }) readString,
    .ofSlot "nullifier_hash" (·.nullifierHash) (fun d a => { d with nullifierHash := some a })
      readString,
    .ofSlot "proof" (·.proof) (fun d a => { d with proof := some a }) (readList readString)]
  complete d := do
    let receiver ← d.receiver
    let nullifierHash ← d.nullifierHash
    return { grantId := d.grantId.join, receiver, nullifierHash, proof := d.proof.getD [] }

def toJson (c : ClaimInput) : Json :=
  .object (Json.optional "grant_id" (c.grantId.map .string) ++
    [("receiver", .string c.receiver), ("nullifier_hash", .string c.nullifierHash)] ++
    if c.proof.isEmpty then [] else [("proof", .array (c.proof.map .string))])

end ClaimInput

namespace BatchInput

structure Draft where
  grantId : Option (Option String) := none
  root : Option String := none
  claimCount : Option UInt64 := none
  capacity : Option UInt64 := none
  claims : Option (List ClaimInput) := none

open Json in
def shape : Shape Draft BatchInput where
  blank := {}
  fields := [
    .ofSlot "grant_id" (·.grantId) (fun d a => { d with grantId := some a })
      (readOption readString),
    .ofSlot "root" (·.root) (fun d a => { d with root := some a }) readString,
    .ofSlot "num_proofs" (·.claimCount) (fun d a => { d with claimCount := some a }) readCount,
    .ofSlot "max_proofs" (·.capacity) (fun d a => { d with capacity := some a }) readCount,
    .ofSlot "claims" (·.claims) (fun d a => { d with claims := some a })
      (readList ClaimInput.shape.read)]
  complete d := do
    let root ← d.root
    let claimCount ← d.claimCount
    let capacity ← d.capacity
    let claims ← d.claims
    return { grantId := d.grantId.join, root, claimCount, capacity, claims }

def ofText (text : String) : Except Json.Fault BatchInput := Json.readDocument shape.read text

def toJson (b : BatchInput) : Json :=
  .object (Json.optional "grant_id" (b.grantId.map .string) ++
    [("root", .string b.root), ("num_proofs", .integer b.claimCount.toNat),
      ("max_proofs", .integer b.capacity.toNat), ("claims", .array (b.claims.map (·.toJson)))])

end BatchInput

end ClaimTree
