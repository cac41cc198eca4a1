import ClaimTree.Proofs.Command.Basic
import ClaimTree.Proofs.Json.Cut
import ClaimTree.Proofs.Record.Document

namespace ClaimTree

open Json Shape

theorem Json.Shape.FragileMember.optional {δ α : Type} {fields : List (Field δ)} {key : String}
    {write : α → Json} (h : ∀ a, FragileMember fields (key, write a)) (a : Option α) :
    ∀ m ∈ optional key (a.map write), FragileMember fields m := by
  cases a with
  | none => exact nofun
  | some a => exact List.forall_mem_singleton.mpr (h a)

namespace ClaimInput

theorem truncates_toJson (c : ClaimInput) (layout : Layout) (depth : Nat) :
    Truncates shape.read (c.toJson.write layout depth) := by
  obtain ⟨ms, d, hobject, hfilled, -⟩ := c.filled_toJson
  rw [hobject]
  refine .object_write hfilled ?_ layout depth
  obtain rfl := Json.object.inj hobject
  refine List.forall_mem_append.mpr ⟨List.forall_mem_append.mpr ⟨?_, ?_⟩, ?_⟩
  · exact FragileMember.optional
      (fun text => .of_find rfl fun d => .ofSlot (.present (.string text)) d) c.grantId
  · refine List.forall_mem_cons.mpr ⟨.of_find rfl fun d => .ofSlot (.string _) d, ?_⟩
    exact List.forall_mem_singleton.mpr (.of_find rfl fun d => .ofSlot (.string _) d)
  · split
    · exact nofun
    · refine List.forall_mem_singleton.mpr (.of_find rfl fun d => .ofSlot (.list_map ?_ ?_) d)
      · exact fun text _ => .string text
      · exact fun text _ => .string text

end ClaimInput

namespace BatchInput

theorem truncates_toJson (b : BatchInput) (layout : Layout) (depth : Nat) :
    Truncates shape.read (b.toJson.write layout depth) := by
  obtain ⟨ms, d, hobject, hfilled, -⟩ := b.filled_toJson
  rw [hobject]
  refine .object_write hfilled ?_ layout depth
  obtain rfl := Json.object.inj hobject
  refine List.forall_mem_append.mpr ⟨?_, ?_⟩
  · exact FragileMember.optional
      (fun text => .of_find rfl fun d => .ofSlot (.present (.string text)) d) b.grantId
  · refine List.forall_mem_cons.mpr ⟨.of_find rfl fun d => .ofSlot (.string _) d, ?_⟩
    refine List.forall_mem_cons.mpr ⟨.of_find rfl fun d => .ofSlot (.count _) d, ?_⟩
    refine List.forall_mem_cons.mpr ⟨.of_find rfl fun d => .ofSlot (.count _) d, ?_⟩
    refine List.forall_mem_singleton.mpr (.of_find rfl fun d => .ofSlot (.list_map ?_ ?_) d)
    · exact fun c _ => c.recovers_toJson
    · exact fun c _ layout depth => (c.truncates_toJson layout depth).breaks

end BatchInput

namespace ClaimRecord

theorem truncates_toJson (r : ClaimRecord) (layout : Layout) (depth : Nat) :
    Truncates shape.read (r.toJson.write layout depth) := by
  obtain ⟨ms, d, hobject, hfilled, -⟩ := r.filled_toJson
  rw [hobject]
  refine .object_write hfilled ?_ layout depth
  obtain rfl := Json.object.inj hobject
  refine List.forall_mem_append.mpr ⟨?_, ?_⟩
  · exact FragileMember.optional
      (fun id => .of_find rfl fun d => .ofSlot (.present (.text _ _)) d) r.grantId
  · refine List.forall_mem_cons.mpr ⟨.of_find rfl fun d => .ofSlot (.text _ _) d, ?_⟩
    refine List.forall_mem_cons.mpr ⟨.of_find rfl fun d => .ofSlot (.list_map ?_ ?_) d, ?_⟩
    · exact fun node _ => .text node.parse_text
    · exact fun node _ => .text _ _
    refine List.forall_mem_cons.mpr ⟨.of_find rfl fun d => .ofSlot (.text _ _) d, ?_⟩
    refine List.forall_mem_cons.mpr ⟨.of_find rfl fun d => .ofSlot (.text _ _) d, ?_⟩
    refine List.forall_mem_cons.mpr ⟨.of_find rfl fun d => .ofSlot (.text _ _) d, ?_⟩
    exact List.forall_mem_singleton.mpr (.of_find rfl fun d => .ofSlot (.count _) d)

end ClaimRecord

/-- Whatever place the document of a batch or of a record is cut at, reading what is left comes to
the end of the text too early; and from a file that holds so much of a batch nothing is loaded. -/
theorem cut_documents_truncated (layout : Layout) :
    (∀ (b : BatchInput) (cut : String), ProperPrefix cut (b.toJson.text layout) →
      BatchInput.ofText cut = .error .truncated ∧
      ∀ (fs : Files) (path : String), fs.read path = .ok cut.toUTF8 →
        Batch.ofContents path (fs.read path) = .error (.document path .truncated) ∧
        ∀ config : Config, config.input = path → (loadCommitment config).run fs =
          (fs, ⟨[], .error (.load (.document path .truncated))⟩)) ∧
    ∀ (r : ClaimRecord) (cut : String), ProperPrefix cut (r.toJson.text layout) →
      ClaimRecord.ofText cut = .error .truncated := by
  refine ⟨fun b cut hcut => ?_, fun r cut hcut => (r.truncates_toJson layout 0).readDocument hcut⟩
  have hread : BatchInput.ofText cut = .error .truncated :=
    (b.truncates_toJson layout 0).readDocument hcut
  exact ⟨hread, fun fs path => ofContents_of_fault hread⟩

/-- Of the number of claims one digit is left, and of an escape in a grant the first four places. -/
theorem cut_documents_truncated_inside :
    let b : BatchInput := ⟨some "\x01", "0", 12, 16, []⟩
    let number := "\x7b\"grant_id\":\"\\u0001\",\"root\":\"0\",\"num_proofs\":1"
    let escape := "\x7b\n  \"grant_id\": \"\\u00"
    let fs := (Files.empty ⟨["w"]⟩).put ⟨["w", "batch.json"]⟩ (.file number.toUTF8)
    ProperPrefix number (b.toJson.text .compact) ∧ ProperPrefix escape (b.toJson.text .pretty) ∧
      BatchInput.ofText number = .error .truncated ∧ BatchInput.ofText escape = .error .truncated ∧
      (loadCommitment ⟨"batch.json", .v1, true⟩).run fs =
        (fs, ⟨[], .error (.load (.document "batch.json" .truncated))⟩) := by
  intro b number escape fs
  have hnumber : ProperPrefix number (b.toJson.text .compact) := by decide +kernel
  have hescape : ProperPrefix escape (b.toJson.text .pretty) := by decide +kernel
  obtain ⟨hread, hload⟩ := (cut_documents_truncated .compact).1 b number hnumber
  obtain ⟨hread', -⟩ := (cut_documents_truncated .pretty).1 b escape hescape
  exact ⟨hnumber, hescape, hread, hread', (hload fs "batch.json" rfl).2 _ rfl⟩

end ClaimTree
