import ClaimTree.Batch.Input
import ClaimTree.Record.Basic

namespace ClaimTree.ClaimRecord

structure Draft where
  grantId : Option (Option Uint256) := none
  root : Option Node := none
  siblings : Option (List Node) := none
  orientation : Option Orientation := none
  nullifierHash : Option Uint256 := none
  receiver : Option Address := none
  leafIndex : Option UInt64 := none

open Json in
def shape : Shape Draft ClaimRecord where
  blank := {}
  fields := [
    .ofSlot "grantId" (·.grantId) (fun d a => { d with grantId := some a })
      (readOption (readText Uint256.parse)),
    .ofSlot "root" (·.root) (fun d a => { d with root := some a }) (readText Node.parse),
    .ofSlot "sisterNodes" (·.siblings) (fun d a => { d with siblings := some a })
      (readList (readText Node.parse)),
    .ofSlot "isLeftBytes" (·.orientation) (fun d a => { d with orientation := some a })
      (readText Orientation.parse),
    .ofSlot "nullifierHash" (·.nullifierHash) (fun d a => { d with nullifierHash := some a })
      (readText Uint256.parse),
    .ofSlot "receiver" (·.receiver) (fun d a => { d with receiver := some a })
      (readText Address.parse),
    .ofSlot "leafIndex" (·.leafIndex) (fun d a => { d with leafIndex := some a }) readCount]
  complete d := do
    let root ← d.root
    let siblings ← d.siblings
    let orientation ← d.orientation
    let nullifierHash ← d.nullifierHash
    let receiver ← d.receiver
    let leafIndex ← d.leafIndex
    return {
      grantId := d.grantId.join, root, siblings, orientation, nullifierHash, receiver, leafIndex }

def ofText (text : String) : Except Json.Fault ClaimRecord := Json.readDocument shape.read text

def toJson (r : ClaimRecord) : Json :=
  .object (Json.optional "grantId" (r.grantId.map (.string ·.text)) ++
    [("root", .string r.root.text), ("sisterNodes", .array (r.siblings.map (.string ·.text))),
      ("isLeftBytes", .string r.orientation.text),
      ("nullifierHash", .string r.nullifierHash.text),
      ("receiver", .string r.receiver.checksum), ("leafIndex", .integer r.leafIndex.toNat)])

end ClaimTree.ClaimRecord
