import ClaimTree.Proofs.Address
import ClaimTree.Proofs.Batch.Basic
import ClaimTree.Proofs.Command.Basic
import ClaimTree.Proofs.Commitment.Export
import ClaimTree.Proofs.Node

namespace ClaimTree

/-- The text at a key of an object, if there is one. -/
def Json.textAt? (key : String) : Json → Option String
  | .object members =>
    match members.lookup key with
    | some (.string text) => some text
    | _ => none
  | _ => none

namespace ClaimRecord

/-- The claim of a record as it stands in the document of the record, with any proof. -/
def toInput (proof : List String) (r : ClaimRecord) : ClaimInput where
  grantId := r.toJson.textAt? "grantId"
  receiver := (r.toJson.textAt? "receiver").getD ""
  nullifierHash := (r.toJson.textAt? "nullifierHash").getD ""
  proof

theorem toInput_eq (proof : List String) (r : ClaimRecord) :
    r.toInput proof =
      ⟨r.grantId.map (·.text), r.receiver.checksum, r.nullifierHash.text, proof⟩ := by
  obtain ⟨grant, root, siblings, orientation, nullifierHash, receiver, leafIndex⟩ := r
  cases grant <;> rfl

/-- The batch that records describe: it names no grant of its own. -/
def describe (root : Node) (capacity : Nat) (proof : ClaimRecord → List String)
    (records : List ClaimRecord) : BatchInput where
  grantId := none
  root := root.text
  claimCount := UInt64.ofNat records.length
  capacity := UInt64.ofNat capacity
  claims := records.map fun r => r.toInput (proof r)

end ClaimRecord

theorem Claim.parse_texts (claim : Claim) :
    parse (claim.grantId.map (·.text)) claim.receiver.checksum claim.nullifierHash.text =
      .ok claim := by
  obtain ⟨grant, receiver, nullifierHash⟩ := claim
  have hgrant : (grant.map (·.text)).mapM Uint256.parse = .ok grant := by
    cases grant with
    | none => rfl
    | some grant =>
      rw [Option.map_some, Option.mapM_some, Uint256.parse_text]
      rfl
  rw [parse, hgrant, Address.parse_checksum, Uint256.parse_text]
  rfl

namespace BatchInput

theorem parseFrom_toInput (proof : ClaimRecord → List String) (records : List ClaimRecord)
    (start : Nat) :
    parseFrom none start (records.map fun r => r.toInput (proof r)) =
      .ok (records.map (·.claim)) := by
  induction records generalizing start with
  | nil => rfl
  | cons r records ih =>
    have hclaim : (r.toInput (proof r)).parse none = .ok r.claim := by
      rw [ClaimRecord.toInput_eq, ClaimInput.parse, ClaimInput.grantText, Option.or_none]
      exact r.claim.parse_texts
    rw [List.map_cons, parseFrom, hclaim, ih]
    rfl

theorem toBatch_describe (root : Node) {capacity : Nat} {records : List ClaimRecord}
    (proof : ClaimRecord → List String) (hcount : records.length < UInt64.size)
    (hcapacity : capacity < UInt64.size) :
    (ClaimRecord.describe root capacity proof records).toBatch =
      .ok ⟨root, capacity, records.map (·.claim)⟩ := by
  have hlength : (ClaimRecord.describe root capacity proof records).claims.length =
      records.length := List.length_map _
  refine toBatch_eq_ok_iff.mpr ⟨?_, root.toUint256, root.parse_text_uint256,
    parseFrom_toInput proof records 0, root.ofUint256_toUint256.symm, ?_⟩
  · rw [hlength]
    exact UInt64.toNat_ofNat_of_lt' hcount
  · exact (UInt64.toNat_ofNat_of_lt' hcapacity).symm

end BatchInput

namespace Commitment

variable {version : LeafVersion} {claims : List Claim} {capacity : Nat} {k : Commitment}

/-- What the records of a commitment describe is read as the very batch, with the root of the
commitment as the declared one. It is committed to with the same tree and the same records, and
passes the check of the root. -/
theorem commit_describe_records (h : commit version claims capacity = .ok k)
    (proof : ClaimRecord → List String) :
    ∃ records, k.records = .ok records ∧
      (ClaimRecord.describe k.root capacity proof records).claimCount.toNat = records.length ∧
      (ClaimRecord.describe k.root capacity proof records).capacity.toNat = capacity ∧
      ∃ batch, (ClaimRecord.describe k.root capacity proof records).toBatch = .ok batch ∧
        batch.claims = claims ∧ batch.capacity = capacity ∧ batch.declaredRoot = k.root ∧
        ∃ k', commit version batch.claims batch.capacity = .ok k' ∧
          (checkRoot batch.declaredRoot k'.root false).result = .ok () ∧
          k'.tree = k.tree ∧ k'.records = .ok records := by
  obtain ⟨hk, rfl, rfl, rfl⟩ := commit_eq_ok_iff.mp h
  obtain ⟨records, hrecords, hclaims, -⟩ := hk.exists_records
  have hcapacity := hk.leafCount_lt_size
  have hcount : records.length < UInt64.size := by
    rw [← List.length_map (fun r : ClaimRecord => r.claim), hclaims]
    exact Nat.lt_of_le_of_lt hk.claims_le hcapacity
  have hbatch := BatchInput.toBatch_describe k.root proof hcount hcapacity
  rw [hclaims] at hbatch
  refine ⟨records, hrecords, ?_, ?_, _, hbatch, rfl, rfl, rfl, k, h, ?_, rfl, hrecords⟩
  · exact UInt64.toNat_ofNat_of_lt' hcount
  · exact UInt64.toNat_ofNat_of_lt' hcapacity
  · rw [result_checkRoot, if_pos (.inl rfl)]

theorem commit_describe_records_mixed_grants :
    let claims : List Claim := [⟨some (.ofUInt64 5), .zero, .ofUInt64 1⟩, ⟨none, .zero, .zero⟩]
    ∃ k records, commit .v1 claims 2 = .ok k ∧ k.records = .ok records ∧
      ∃ batch, (ClaimRecord.describe k.root 2 (fun _ => ["proof"]) records).toBatch = .ok batch ∧
        batch.claims = claims ∧ batch.capacity = 2 ∧ batch.declaredRoot = k.root ∧
        ∃ k', commit .v1 batch.claims batch.capacity = .ok k' ∧
          (checkRoot batch.declaredRoot k'.root false).result = .ok () ∧
          k'.tree = k.tree ∧ k'.records = .ok records := by
  intro claims
  obtain ⟨k, hk⟩ : ∃ k, commit .v1 claims (2 ^ 1) = .ok k :=
    exists_commit (by decide) (by decide) fun claim hclaim => nofun
  obtain ⟨records, hrecords, -, -, batch, hbatch, hclaims, hcapacity, hroot, k', hk', hcheck,
    htree, hrecords'⟩ := commit_describe_records hk fun _ => ["proof"]
  exact ⟨k, records, hk, hrecords, batch, hbatch, hclaims, hcapacity, hroot, k', hk', hcheck,
    htree, hrecords'⟩

end Commitment

end ClaimTree
