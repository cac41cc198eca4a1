import ClaimTree.Proofs.Address
import ClaimTree.Proofs.Batch.Document
import ClaimTree.Proofs.Node
import ClaimTree.Proofs.Orientation
import ClaimTree.Record.Document

namespace ClaimTree

open Json

namespace ClaimRecord

/-- Reads a document that is an array of records. -/
def listOfText (text : String) : Except Fault (List ClaimRecord) :=
  readDocument (readList shape.read) text

theorem recovers_siblings (siblings : List Node) :
    Recovers (readList (readText Node.parse)) (.array (siblings.map (.string ·.text))) siblings :=
  .list_map fun node _ => .text node.parse_text

/-- The members of the written object fill a draft that is completed to the record. -/
theorem filled_toJson (r : ClaimRecord) : ∃ ms d, r.toJson = .object ms ∧
    Shape.Filled shape.fields ms shape.blank d ∧ shape.complete d = some r := by
  obtain ⟨grant, root, siblings, orientation, nullifierHash, receiver, leafIndex⟩ := r
  obtain ⟨slot, hslot, hgrant⟩ := Shape.Filled.exists_optional shape.fields "grantId" grant
    (fun slot => { grantId := slot }) rfl rfl
    fun id => .ofSlot (.present (.text id.parse_text)) _
  let d : Draft := ⟨slot, root, siblings, orientation, nullifierHash, receiver, leafIndex⟩
  refine ⟨_, d, rfl, hgrant.append ?_, ?_⟩
  · refine .cons rfl rfl (.ofSlot (.text root.parse_text) _) ?_
    refine .cons rfl rfl (.ofSlot (recovers_siblings siblings) _) ?_
    refine .cons rfl rfl (.ofSlot (.text orientation.parse_text) _) ?_
    refine .cons rfl rfl (.ofSlot (.text nullifierHash.parse_text) _) ?_
    refine .cons rfl rfl (.ofSlot (.text receiver.parse_checksum) _) ?_
    exact .cons rfl rfl (.ofSlot (.count leafIndex) _) (.nil _)
  · rw [← hslot]
    rfl

theorem recovers_toJson (r : ClaimRecord) : Recovers shape.read r.toJson r := by
  obtain ⟨ms, d, hobject, hfilled, hcomplete⟩ := r.filled_toJson
  rw [hobject]
  exact .object hfilled hcomplete

theorem ofText_toJson (r : ClaimRecord) (layout : Layout) :
    ofText (r.toJson.text layout) = .ok r :=
  r.recovers_toJson.readDocument_text layout

theorem listOfText_toJson (records : List ClaimRecord) (layout : Layout) :
    listOfText ((Json.array (records.map (·.toJson))).text layout) = .ok records :=
  Recovers.readDocument_text (.list_map fun r _ => r.recovers_toJson) layout

/-- Reads a record and writes it again. -/
def rewrite (layout : Layout) (text : String) : Except Fault String :=
  (ofText text).map fun r => r.toJson.text layout

theorem rewrite_of_ofText {text : String} {r : ClaimRecord} (h : ofText text = .ok r)
    (layout : Layout) : rewrite layout text = .ok (r.toJson.text layout) := by
  rw [rewrite, h]
  rfl

/-- Every record is read back from its text in either layout. Whatever document a record was read
from, writing it keeps the record and comes to a text that reading and writing leave as it is. -/
theorem rewrite_stable (layout : Layout) :
    (∀ r : ClaimRecord, ofText (r.toJson.text layout) = .ok r) ∧
    ∀ text r, ofText text = .ok r → ∃ written, rewrite layout text = .ok written ∧
      ofText written = .ok r ∧ rewrite layout written = .ok written := by
  refine ⟨fun r => r.ofText_toJson layout, fun text r hread => ?_⟩
  have hwritten : ofText (r.toJson.text layout) = .ok r := r.ofText_toJson layout
  exact ⟨_, rewrite_of_ofText hread layout, hwritten, rewrite_of_ofText hwritten layout⟩

/-- The members of a record in the opposite order, with a decimal, padded digits between blanks, and
digits without their marker and in both cases. -/
def looselySpelled : Json :=
  .object [("leafIndex", .integer 1),
    ("receiver", .string "00000000000000000000000000000000000000aB"),
    ("nullifierHash", .string " 0X0007 "),
    ("isLeftBytes", .string "0100000000000000000000000000000000000000000000000000000000000000"),
    ("sisterNodes",
      .array [.string "000000000000000000000000000000000000000000000000000000000000000F"]),
    ("root", .string "0x0000000000000000000000000000000000000000000000000000000000000010"),
    ("grantId", .string "030")]

theorem recovers_looselySpelled :
    let orientation : Orientation := ⟨1 :: List.replicate 31 0, rfl⟩
    let receiver : Address := ⟨List.replicate 19 0 ++ [0xAB], rfl⟩
    Recovers shape.read looselySpelled ⟨some (.ofUInt64 30), .ofUint256 (.ofUInt64 16),
      [.ofUint256 (.ofUInt64 15)], orientation, .ofUInt64 7, receiver, 1⟩ := by
  intro orientation receiver
  have hreceiver : Address.parse "00000000000000000000000000000000000000aB" =
      .ok receiver := by rfl
  have hnullifierHash : Uint256.parse " 0X0007 " = .ok (.ofUInt64 7) := by rfl
  have horientation : Orientation.parse
      "0100000000000000000000000000000000000000000000000000000000000000" =
      .ok orientation := by rfl
  have hsibling : Node.parse
      "000000000000000000000000000000000000000000000000000000000000000F" =
      .ok (.ofUint256 (.ofUInt64 15)) := by rfl
  have hroot : Node.parse
      "0x0000000000000000000000000000000000000000000000000000000000000010" =
      .ok (.ofUint256 (.ofUInt64 16)) := by rfl
  have hgrant : Uint256.parse "030" = .ok (.ofUInt64 30) := by rfl
  let d : Draft := {
    grantId := some (some (.ofUInt64 30))
    root := some (.ofUint256 (.ofUInt64 16))
    siblings := some [.ofUint256 (.ofUInt64 15)]
    orientation := some orientation
    nullifierHash := some (.ofUInt64 7)
    receiver := some receiver
    leafIndex := some 1 }
  refine .object (d := d) ?_ rfl
  refine .cons rfl rfl (.ofSlot (.count 1) _) ?_
  refine .cons rfl rfl (.ofSlot (.text hreceiver) _) ?_
  refine .cons rfl rfl (.ofSlot (.text hnullifierHash) _) ?_
  refine .cons rfl rfl (.ofSlot (.text horientation) _) ?_
  refine .cons rfl rfl (.ofSlot (.list (.cons (.text hsibling) .nil)) _) ?_
  refine .cons rfl rfl (.ofSlot (.text hroot) _) ?_
  exact .cons rfl rfl (.ofSlot (.present (.text hgrant)) _) (.nil _)

theorem rewrite_stable_loosely_spelled :
    ∃ r, ofText (looselySpelled.text .pretty) = .ok r ∧
      ∃ written, rewrite .compact (looselySpelled.text .pretty) = .ok written ∧
        ofText written = .ok r ∧ rewrite .compact written = .ok written := by
  have hread := recovers_looselySpelled.readDocument_text .pretty
  exact ⟨_, hread, (rewrite_stable .compact).2 _ _ hread⟩

end ClaimRecord

end ClaimTree
