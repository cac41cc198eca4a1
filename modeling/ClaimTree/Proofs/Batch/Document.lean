import ClaimTree.Batch.Load
import ClaimTree.Proofs.Json.Written

namespace ClaimTree

open Json

theorem fromUTF8?_toUTF8 (text : String) : String.fromUTF8? text.toUTF8 = some text := by
  rw [String.fromUTF8?, String.toUTF8_eq_toByteArray, dif_pos text.isValidUTF8]
  rfl

/-- A member that is left out when it holds nothing, read into the slot of a draft. -/
theorem Json.Shape.Filled.exists_optional {δ α : Type} {field : Field δ} {write : α → Json}
    (fields : List (Field δ)) (key : String) (a : Option α) (place : Option (Option α) → δ)
    (hfind : fields.find? (·.key = key) = some field)
    (hempty : field.isFilled (place none) = false)
    (hread : ∀ b, Recovers (field.read (place none)) (write b) (place (some (some b)))) :
    ∃ slot, slot.join = a ∧
      Filled fields (optional key (a.map write)) (place none) (place slot) := by
  cases a with
  | none => exact ⟨none, rfl, .nil _⟩
  | some b => exact ⟨some (some b), rfl, .cons hfind hempty (hread b) (.nil _)⟩

namespace ClaimInput

/-- The members of the written object fill a draft that is completed to the claim. -/
theorem filled_toJson (c : ClaimInput) : ∃ ms d, c.toJson = .object ms ∧
    Shape.Filled shape.fields ms shape.blank d ∧ shape.complete d = some c := by
  obtain ⟨grant, receiver, nullifierHash, proof⟩ := c
  obtain ⟨slot, hslot, hgrant⟩ := Shape.Filled.exists_optional shape.fields "grant_id" grant
    (fun slot => { grantId := slot }) rfl rfl
    fun text => .ofSlot (.present (.string text)) _
  obtain ⟨part, hpart, hproof⟩ : ∃ part : Option (List String), part.getD [] = proof ∧
      Shape.Filled shape.fields
        (if proof.isEmpty then [] else [("proof", .array (proof.map .string))])
        ⟨slot, receiver, nullifierHash, none⟩ ⟨slot, receiver, nullifierHash, part⟩ := by
    cases proof with
    | nil => exact ⟨none, rfl, .nil _⟩
    | cons text texts =>
      refine ⟨some (text :: texts), rfl, .cons rfl rfl (.ofSlot ?_ _) (.nil _)⟩
      exact .list_map fun text _ => .string text
  refine ⟨_, ⟨slot, receiver, nullifierHash, part⟩, rfl, (hgrant.append ?_).append hproof, ?_⟩
  · refine .cons rfl rfl (.ofSlot (.string receiver) _) ?_
    exact .cons rfl rfl (.ofSlot (.string nullifierHash) _) (.nil _)
  · rw [← hslot, ← hpart]
    rfl

theorem recovers_toJson (c : ClaimInput) : Recovers shape.read c.toJson c := by
  obtain ⟨ms, d, hobject, hfilled, hcomplete⟩ := c.filled_toJson
  rw [hobject]
  exact .object hfilled hcomplete

end ClaimInput

namespace BatchInput

/-- The members of the written object fill a draft that is completed to the batch. -/
theorem filled_toJson (b : BatchInput) : ∃ ms d, b.toJson = .object ms ∧
    Shape.Filled shape.fields ms shape.blank d ∧ shape.complete d = some b := by
  obtain ⟨grant, root, claimCount, capacity, claims⟩ := b
  obtain ⟨slot, hslot, hgrant⟩ := Shape.Filled.exists_optional shape.fields "grant_id" grant
    (fun slot => { grantId := slot }) rfl rfl
    fun text => .ofSlot (.present (.string text)) _
  refine ⟨_, ⟨slot, root, claimCount, capacity, claims⟩, rfl, hgrant.append ?_, ?_⟩
  · refine .cons rfl rfl (.ofSlot (.string root) _) ?_
    refine .cons rfl rfl (.ofSlot (.count claimCount) _) ?_
    refine .cons rfl rfl (.ofSlot (.count capacity) _) ?_
    refine .cons rfl rfl (.ofSlot ?_ _) (.nil _)
    exact .list_map fun c _ => c.recovers_toJson
  · rw [← hslot]
    rfl

theorem recovers_toJson (b : BatchInput) : Recovers shape.read b.toJson b := by
  obtain ⟨ms, d, hobject, hfilled, hcomplete⟩ := b.filled_toJson
  rw [hobject]
  exact .object hfilled hcomplete

theorem ofText_toJson (b : BatchInput) (layout : Layout) :
    ofText (b.toJson.text layout) = .ok b :=
  b.recovers_toJson.readDocument_text layout

/-- The bytes are those of a document that is read as this batch. -/
def HeldBy (b : BatchInput) (contents : ByteArray) : Prop :=
  ∃ text, String.fromUTF8? contents = some text ∧ ofText text = .ok b

theorem heldBy_toJson (b : BatchInput) (layout : Layout) :
    b.HeldBy (b.toJson.text layout).toUTF8 :=
  ⟨_, fromUTF8?_toUTF8 _, b.ofText_toJson layout⟩

theorem HeldBy.ofContents {b : BatchInput} {contents : ByteArray} (h : b.HeldBy contents)
    (path : String) :
    Batch.ofContents path (.ok contents) = b.toBatch.mapError .batch := by
  obtain ⟨text, hdecode, hread⟩ := h
  have hcontents : Batch.ofContents path (.ok contents) = Batch.ofText path text := by
    simp only [Batch.ofContents, Except.mapError, bind, Except.bind, hdecode]
  rw [hcontents, Batch.ofText, hread]
  rfl

/-- A described batch is read back from its text in either layout; so a file with that text in it
gives the batch that the description gives, or is refused for what the description is refused for. -/
theorem ofContents_read_written (b : BatchInput) (layout : Layout) :
    ofText (b.toJson.text layout) = .ok b ∧
    ∀ (fs : Files) (path : String), fs.read path = .ok (b.toJson.text layout).toUTF8 →
      (∀ batch, Batch.ofContents path (fs.read path) = .ok batch ↔ b.toBatch = .ok batch) ∧
      ∀ e, Batch.ofContents path (fs.read path) = .error e ↔
        ∃ cause, b.toBatch = .error cause ∧ .batch cause = e := by
  refine ⟨b.ofText_toJson layout, fun fs path hread => ?_⟩
  rw [hread, (b.heldBy_toJson layout).ofContents]
  exact ⟨fun batch => mapError_eq_ok_iff, fun e => mapError_eq_error_iff⟩

/-- Quotes, backslashes, control characters and characters beyond ASCII, in a batch that is refused
for the second of its claims. -/
def awkward : BatchInput where
  grantId := some "1"
  root := "0"
  claimCount := 2
  capacity := 2
  claims := [
    ⟨none, "0x0000000000000000000000000000000000000000", "7", ["\"a\\b\"", "", "\n\x01"]⟩,
    ⟨some "2", "0x0000000000000000000000000000000000000000", "\t\"7\" \\ é🌳\x00", []⟩]

theorem ofContents_read_written_awkward :
    let fs := (Files.empty ⟨["w"]⟩).put ⟨["w", "batch.json"]⟩
      (.file (awkward.toJson.text .compact).toUTF8)
    ofText (awkward.toJson.text .pretty) = .ok awkward ∧
      Batch.ofContents "batch.json" (fs.read "batch.json") =
        .error (.batch (.claims (.invalidClaim 1 (.field (.integer "\t\"7\" \\ é🌳\x00"))))) := by
  intro fs
  have hread : fs.read "batch.json" = .ok (awkward.toJson.text .compact).toUTF8 := rfl
  have hrefused : awkward.toBatch =
      .error (.claims (.invalidClaim 1 (.field (.integer "\t\"7\" \\ é🌳\x00")))) := by rfl
  refine ⟨(ofContents_read_written awkward .pretty).1, ?_⟩
  exact (((ofContents_read_written awkward .compact).2 fs _ hread).2 _).mpr ⟨_, hrefused, rfl⟩

end BatchInput

end ClaimTree
