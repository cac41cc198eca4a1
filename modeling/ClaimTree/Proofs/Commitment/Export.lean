import ClaimTree.Proofs.Commitment.Basic
import ClaimTree.Proofs.Record.Basic
import ClaimTree.Proofs.Tree.Replace

namespace ClaimTree

/-- A claim that stands at its leaf has a record, which writes down the path from there. -/
theorem Tree.Perfect.exists_record {t : Tree} {claim : Claim} {index : Nat} {version : LeafVersion}
    (ht : t.Perfect) (hdepth : t.depth ≤ Capacity.maxDepth) (haccepts : version.Accepts claim)
    (hleaf : t.leaves[index]? = some (version.claimNode claim)) :
    ∃ record : ClaimRecord, t.record claim index version = .ok record ∧
      record.claim = claim ∧ record.root = t.root ∧ record.leafIndex = UInt64.ofNat index ∧
      record.path = t.steps index := by
  obtain ⟨hindex, -⟩ := List.getElem?_eq_some_iff.mp hleaf
  have hsides : (Path.sides (t.steps index)).length ≤ 32 := by
    rw [Path.length_sides, ht.length_steps hindex]
    exact hdepth
  obtain ⟨orientation, hpacked, -⟩ := Orientation.exists_ofFlags hsides
  have hrecord := record_eq_ok_iff.mpr ⟨haccepts, hleaf, orientation, hpacked, rfl⟩
  exact ⟨_, hrecord, rfl, rfl, rfl, path_of_record hrecord⟩

namespace Commitment

variable {version : LeafVersion} {claims : List Claim} {capacity : Nat} {k : Commitment}

theorem Sound.leafCount_lt_size (hk : k.Sound) : k.tree.leafCount < UInt64.size :=
  hk.perfect.leafCount_lt_size hk.depth_le

theorem Sound.exists_record (hk : k.Sound) {index : Nat} {claim : Claim}
    (hclaim : k.claims[index]? = some claim) :
    ∃ record : ClaimRecord, k.record index = .ok record ∧
      record.claim = claim ∧ record.root = k.root ∧ record.leafIndex.toNat = index ∧
      record.path = k.tree.steps index := by
  obtain ⟨hindex, hget⟩ := List.getElem?_eq_some_iff.mp hclaim
  have hleaf := hk.leaf_of_slot (slot_of_claim hclaim)
  have haccepts : k.version.Accepts claim := hk.accepts claim (hget ▸ List.getElem_mem hindex)
  obtain ⟨record, hrecord, hfields, hroot, hleafIndex, hpath⟩ :=
    hk.perfect.exists_record hk.depth_le haccepts hleaf
  refine ⟨record, ?_, hfields, hroot, ?_, hpath⟩
  · rw [Commitment.record, hclaim]
    exact hrecord
  · have hsize := hk.leafCount_lt_size
    have hle := hk.claims_le
    rw [hleafIndex, UInt64.toNat_ofNat']
    exact Nat.mod_eq_of_lt (Nat.lt_of_lt_of_le hindex (Nat.le_trans hle (Nat.le_of_lt hsize)))

/-- All records together, each at the place of its claim. -/
theorem Sound.exists_records (hk : k.Sound) :
    ∃ records, k.records = .ok records ∧ records.map (·.claim) = k.claims ∧
      ∀ index record, records[index]? = some record →
        k.record index = .ok record ∧ record.root = k.root ∧ record.leafIndex.toNat = index := by
  have hall : ∀ index ∈ List.range k.claims.length, ∃ record, k.record index = .ok record := by
    intro index hindex
    obtain ⟨record, hrecord, -⟩ :=
      hk.exists_record (List.getElem?_eq_getElem (List.mem_range.mp hindex))
    exact ⟨record, hrecord⟩
  obtain ⟨records, hrecords, hmap⟩ := exists_mapM_eq_ok hall
  have hlength : records.length = k.claims.length := by
    simpa using (congrArg List.length hmap).symm
  have hplace : ∀ index record, records[index]? = some record →
      ∃ claim, k.claims[index]? = some claim ∧ k.record index = .ok record := by
    intro index record hrecord
    obtain ⟨hindex, -⟩ := List.getElem?_eq_some_iff.mp hrecord
    have hclaim : index < k.claims.length := hlength ▸ hindex
    refine ⟨_, List.getElem?_eq_getElem hclaim, ?_⟩
    have hget := congrArg (·[index]?) hmap
    simpa [hrecord, hclaim] using hget
  refine ⟨records, hrecords, ?_, ?_⟩
  · apply List.ext_getElem?
    intro index
    rw [List.getElem?_map]
    cases hrecord : records[index]? with
    | none =>
      have hbeyond := List.getElem?_eq_none_iff.mp hrecord
      exact (List.getElem?_eq_none (hlength ▸ hbeyond)).symm
    | some record =>
      obtain ⟨claim, hclaim, hown⟩ := hplace index record hrecord
      obtain ⟨record', hrecord', hfields, -⟩ := hk.exists_record hclaim
      obtain rfl := Except.ok.inj (hown.symm.trans hrecord')
      rw [hclaim, Option.map_some, hfields]
  · intro index record hrecord
    obtain ⟨claim, hclaim, hown⟩ := hplace index record hrecord
    obtain ⟨record', hrecord', -, hroot, hleafIndex, -⟩ := hk.exists_record hclaim
    obtain rfl := Except.ok.inj (hown.symm.trans hrecord')
    exact ⟨hown, hroot, hleafIndex⟩

/-- Of a commitment that was built exactly the claims have records. Each one folds to the root of
the commitment from the leaf of its own claim, and all together stand in the order of the batch. -/
theorem commit_records_verify (h : commit version claims capacity = .ok k) :
    (∀ index (hindex : index < claims.length), ∃ record leaf,
      k.record index = .ok record ∧ version.leaf record.claim = .ok leaf ∧
      record.path.fold leaf = record.root ∧ record.root = k.root ∧
      record.leafIndex.toNat = index ∧ record.claim = claims[index]) ∧
    (∀ index, claims.length ≤ index →
      k.record index = .error (.indexOutOfRange index claims.length)) ∧
    ∃ records, k.records = .ok records ∧ records.length = claims.length ∧
      ∀ index (hindex : index < records.length), k.record index = .ok records[index] := by
  obtain ⟨hk, rfl, rfl, rfl⟩ := commit_eq_ok_iff.mp h
  refine ⟨?_, ?_, ?_⟩
  · intro index hindex
    have hclaim : k.claims[index]? = some k.claims[index] := List.getElem?_eq_getElem hindex
    obtain ⟨record, hrecord, hfields, hroot, hleafIndex, hpath⟩ := hk.exists_record hclaim
    have hleaf := hk.leaf_of_slot (slot_of_claim hclaim)
    have haccepts := hk.accepts _ (List.getElem_mem hindex)
    refine ⟨record, k.version.claimNode k.claims[index], hrecord, ?_, ?_, hroot, hleafIndex,
      hfields⟩
    · rw [hfields, LeafVersion.leaf_of_accepts haccepts]
    · rw [hpath, hk.perfect.fold_steps hleaf, hroot, root]
  · intro index hindex
    rw [record, List.getElem?_eq_none hindex]
  · have hall : ∀ index ∈ List.range k.claims.length, ∃ record, k.record index = .ok record := by
      intro index hindex
      have hclaim := List.getElem?_eq_getElem (List.mem_range.mp hindex)
      obtain ⟨record, hrecord, -⟩ := hk.exists_record hclaim
      exact ⟨record, hrecord⟩
    obtain ⟨records, hrecords, hmap⟩ := exists_mapM_eq_ok hall
    have hlength : records.length = k.claims.length := by
      simpa using (congrArg List.length hmap).symm
    refine ⟨records, hrecords, hlength, ?_⟩
    intro index hindex
    have hget := congrArg (·[index]?) hmap
    simpa [hindex, hlength ▸ hindex] using hget

theorem commit_records_verify_three_of_four :
    let claims := [1, 2, 3].map fun n => (⟨some (.ofUInt64 n), .zero, .ofUInt64 n⟩ : Claim)
    ∃ k, commit .v2 claims 4 = .ok k ∧
      (∃ record leaf, k.record 2 = .ok record ∧ LeafVersion.v2.leaf record.claim = .ok leaf ∧
        record.path.fold leaf = record.root ∧ record.root = k.root) ∧
      k.record 3 = .error (.indexOutOfRange 3 3) ∧
      ∃ records, k.records = .ok records ∧ records.length = 3 := by
  intro claims
  have haccepts : ∀ claim ∈ claims, LeafVersion.v2.Accepts claim := by
    intro claim hclaim _
    obtain ⟨n, -, rfl⟩ := List.mem_map.mp hclaim
    rfl
  obtain ⟨k, hk⟩ : ∃ k, commit .v2 claims (2 ^ 2) = .ok k :=
    exists_commit (by decide) (by decide) haccepts
  obtain ⟨hverify, hpadding, records, hrecords, hlength, -⟩ := commit_records_verify hk
  obtain ⟨record, leaf, hrecord, hleaf, hfold, hroot, -⟩ := hverify 2 (by decide)
  exact ⟨k, hk, ⟨record, leaf, hrecord, hleaf, hfold, hroot⟩, hpadding 3 (by decide),
    records, hrecords, hlength⟩

end Commitment

end ClaimTree
