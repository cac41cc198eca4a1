import ClaimTree.Proofs.Commitment.Export
import ClaimTree.Proofs.Tree.Capacity
import ClaimTree.Proofs.Tree.Sides

namespace ClaimTree.Tree

/-- The first reason for which a claim has no record at a place of a tree. -/
inductive RecordFault (t : Tree) (claim : Claim) (index : Nat) (version : LeafVersion) :
    TreeError → Prop
  | outOfRange : t.leafCount ≤ index →
    RecordFault t claim index version (.indexOutOfRange index t.leafCount)
  | missingGrant : index < t.leafCount → version = .v2 → claim.grantId = none →
    RecordFault t claim index version (.invalidClaim index .missingGrant)
  | mismatch {leaf node : Node} : t.leaf index = .ok node → version.leaf claim = .ok leaf →
    node ≠ leaf → RecordFault t claim index version (.leafMismatch index)
  | tooDeep {leaf : Node} : t.leaf index = .ok leaf → version.leaf claim = .ok leaf →
    32 < t.depth → RecordFault t claim index version (.pathTooLong t.depth)

variable {t : Tree} {claim : Claim} {index : Nat} {version : LeafVersion} {record : ClaimRecord}

theorem fault_of_record (ht : t.Perfect) {e : TreeError}
    (h : t.record claim index version = .error e) : t.RecordFault claim index version e := by
  rcases bind_eq_error_iff.mp h with hpath | ⟨path, hpath, h⟩
  · obtain ⟨hindex, rfl⟩ := path_eq_error_iff.mp hpath
    exact .outOfRange hindex
  obtain ⟨hindex, rfl⟩ := path_eq_ok_iff.mp hpath
  rcases bind_eq_error_iff.mp h with hleaf | ⟨leaf, hleaf, h⟩
  · obtain ⟨cause, hcause, rfl⟩ := mapError_eq_error_iff.mp hleaf
    obtain ⟨hclaim, rfl⟩ := LeafVersion.leaf_eq_error_iff.mp hcause
    obtain ⟨hversion, hgrant⟩ := LeafVersion.not_accepts_iff.mp hclaim
    exact .missingGrant hindex hversion hgrant
  have hown := mapError_eq_ok_iff.mp hleaf
  rcases bind_eq_error_iff.mp h with hnode | ⟨node, hnode, h⟩
  · -- The leaf is there, since the path was.
    rw [leaf_eq_ok (List.getElem?_eq_getElem hindex)] at hnode
    cases hnode
  split at h
  · next hsame =>
    rcases bind_eq_error_iff.mp h with hpacked | ⟨_, -, h⟩
    · obtain ⟨hdepth, rfl⟩ := (ht.orientation_eq_error_iff hindex).mp hpacked
      exact .tooDeep hnode (hsame ▸ hown) hdepth
    · cases h
  · next hdiffers =>
    obtain rfl := Except.error.inj h
    exact .mismatch hnode hown hdiffers

theorem record_of_fault (ht : t.Perfect) {e : TreeError}
    (h : t.RecordFault claim index version e) : t.record claim index version = .error e := by
  cases h with
  | outOfRange hindex =>
    rw [Tree.record, path_eq_error_iff.mpr ⟨hindex, rfl⟩]
    rfl
  | missingGrant hindex hversion hgrant =>
    have hleaf := LeafVersion.leaf_eq_error_iff.mpr
      ⟨LeafVersion.not_accepts_iff.mpr ⟨hversion, hgrant⟩, rfl⟩
    rw [Tree.record, path_eq_ok hindex, hleaf]
    rfl
  | mismatch hnode hleaf hdiffers =>
    obtain ⟨hindex, -⟩ := List.getElem?_eq_some_iff.mp (leaf_eq_ok_iff.mp hnode)
    rw [Tree.record, path_eq_ok hindex, hleaf, hnode]
    exact if_neg hdiffers
  | tooDeep hnode hleaf hdepth =>
    obtain ⟨hindex, -⟩ := List.getElem?_eq_some_iff.mp (leaf_eq_ok_iff.mp hnode)
    have hpacked := (ht.orientation_eq_error_iff hindex).mpr ⟨hdepth, rfl⟩
    rw [Tree.record, path_eq_ok hindex, hleaf, hnode]
    refine (if_pos rfl).trans ?_
    rw [hpacked]
    rfl

theorem record_eq_error_iff_fault (ht : t.Perfect) {e : TreeError} :
    t.record claim index version = .error e ↔ t.RecordFault claim index version e :=
  ⟨fault_of_record ht, record_of_fault ht⟩

/-- A record from the tree of a commitment is a record of what stands in the slot, unless the
messages of claim and slot collide. -/
theorem slot_of_record {k : Commitment} (hk : k.Sound)
    (h : k.tree.record claim index version = .ok record) :
    ∃ slot message message', k.slots[index]? = some slot ∧ version.message claim = .ok message ∧
      k.version.message slot = .ok message' ∧
      (version = k.version ∧ version.SameFields claim slot ∨
        message ≠ message' ∧ keccak256 message = keccak256 message') := by
  obtain ⟨haccepts, hleaf, -⟩ := record_eq_ok_iff.mp h
  rw [hk.leaves_eq, List.getElem?_map] at hleaf
  obtain ⟨slot, hslot, hnode⟩ := Option.map_eq_some_iff.mp hleaf
  have hown := hk.accepts_slot (List.mem_of_getElem? hslot)
  refine ⟨slot, _, _, hslot, LeafVersion.message_of_accepts haccepts,
    LeafVersion.message_of_accepts hown, ?_⟩
  by_cases hsame : version.hashed claim = k.version.hashed slot
  · exact .inl (LeafVersion.eq_of_hashed_eq haccepts hown hsame)
  · exact .inr ⟨hsame, Node.keccak256_eq_of_digest hnode.symm⟩

/-- A claim at a place of a tree has a record unless there is a reason against it, and the first
one is told. The record leads from the claim to the root, so the claim stands at the leaf; in the
tree of a commitment it has the version and the fields of the slot, unless their messages collide. -/
theorem record_outcome {leaves : List Node} (h : ofLeaves leaves = .ok t) (claim : Claim)
    (index : Nat) (version : LeafVersion) :
    (∀ e, t.record claim index version = .error e ↔ t.RecordFault claim index version e) ∧
    ((∀ e, ¬t.RecordFault claim index version e) → ∃ record leaf,
      t.record claim index version = .ok record ∧ record.root = t.root ∧
      record.leafIndex.toNat = index ∧ record.claim = claim ∧
      version.leaf claim = .ok leaf ∧ t.leaf index = .ok leaf ∧ record.path.fold leaf = t.root) ∧
    ∀ version' claims capacity k record, Commitment.commit version' claims capacity = .ok k →
      k.tree = t → t.record claim index version = .ok record →
      ∃ slot message message', (paddedClaims claims capacity)[index]? = some slot ∧
        version.message claim = .ok message ∧ version'.message slot = .ok message' ∧
        (version = version' ∧ version.SameFields claim slot ∨
          message ≠ message' ∧ keccak256 message = keccak256 message') := by
  obtain ⟨ht, -⟩ := ofLeaves_eq_ok_iff.mp h
  refine ⟨fun e => record_eq_error_iff_fault ht, fun hnone => ?_, ?_⟩
  · cases hrecord : t.record claim index version with
    | error e => exact absurd (fault_of_record ht hrecord) (hnone e)
    | ok record =>
      obtain ⟨haccepts, hleaf, orientation, -, rfl⟩ := record_eq_ok_iff.mp hrecord
      refine ⟨_, _, rfl, rfl, (ht.place_of_record hrecord).2, rfl,
        LeafVersion.leaf_of_accepts haccepts, leaf_eq_ok hleaf, ?_⟩
      rw [path_of_record hrecord, ht.fold_steps hleaf]
  · rintro version' claims capacity k record hcommit rfl hrecord
    obtain ⟨hk, rfl, rfl, rfl⟩ := Commitment.commit_eq_ok_iff.mp hcommit
    exact slot_of_record hk hrecord

/-- A claim of zeros at a slot that holds padding, the same claim where it has no record, and a tree
too deep for records. -/
theorem record_outcome_padding_slot :
    let real : Claim := ⟨none, .zero, .ofUInt64 1⟩
    let zeros : Claim := ⟨none, .zero, .zero⟩
    (∃ k, Commitment.commit .v1 [real] 2 = .ok k ∧ ofLeaves k.tree.leaves = .ok k.tree ∧
      k.tree.record zeros 2 .v1 = .error (.indexOutOfRange 2 2) ∧
      k.tree.record zeros 1 .v2 = .error (.invalidClaim 1 .missingGrant) ∧
      ∃ record leaf, k.tree.record zeros 1 .v1 = .ok record ∧
        LeafVersion.v1.leaf zeros = .ok leaf ∧ record.path.fold leaf = k.tree.root ∧
        ∃ slot, (paddedClaims [real] 2)[1]? = some slot ∧ slot = Claim.padding) ∧
    ∃ t, ofLeaves (List.replicate (2 ^ 33) LeafVersion.v1.paddingLeaf) = .ok t ∧
      t.record zeros 5 .v1 = .error (.pathTooLong 33) := by
  intro real zeros
  constructor
  · let nodes := [LeafVersion.v1.claimNode real, LeafVersion.v1.claimNode zeros]
    let t : Tree := .layer nodes (.top (nodes[0].combine nodes[1]))
    have hcommit : Commitment.commit .v1 [real] 2 = .ok ⟨.v1, [real], t⟩ :=
      Commitment.commit_eq_ok_iff.mpr
        ⟨⟨⟨trivial, rfl, rfl⟩, by decide, by decide, nofun, rfl⟩, rfl, rfl, rfl⟩
    have ht : t.Perfect := ⟨trivial, rfl, rfl⟩
    have htree : ofLeaves t.leaves = .ok t := ht.ofLeaves_leaves
    have haccepts : LeafVersion.v1.Accepts zeros := nofun
    have hleaf : t.leaves[1]? = some (LeafVersion.v1.claimNode zeros) := rfl
    obtain ⟨record, hrecord, -⟩ := ht.exists_record (by decide) haccepts hleaf
    have hnone : ∀ e, ¬t.RecordFault zeros 1 .v1 e := by
      intro e he
      cases hrecord.symm.trans (record_of_fault ht he)
    obtain ⟨-, hverifies, hslots⟩ := record_outcome htree zeros 1 .v1
    obtain ⟨record', leaf, hrecord', -, -, -, hleaf, -, hfold⟩ := hverifies hnone
    obtain ⟨slot, -, -, hslot, -⟩ := hslots _ _ _ _ record' hcommit rfl hrecord'
    refine ⟨_, hcommit, htree, ?_, ?_, record', leaf, hrecord', hleaf, hfold, slot, hslot, ?_⟩
    · exact ((record_outcome htree zeros 2 .v1).1 _).mpr (.outOfRange (by decide))
    · exact ((record_outcome htree zeros 1 .v2).1 _).mpr (.missingGrant (by decide) rfl rfl)
    · exact (Option.some.inj hslot).symm
  · obtain ⟨t, ht, hleaves⟩ := exists_perfect 33
      (List.replicate (2 ^ 33) LeafVersion.v1.paddingLeaf) List.length_replicate
    have htree := ofLeaves_eq_ok_iff.mpr ⟨ht, hleaves⟩
    have hdepth : t.depth = 33 := ht.depth_eq (by rw [leafCount, hleaves, List.length_replicate])
    have hleaf : t.leaf 5 = .ok LeafVersion.v1.paddingLeaf := by
      rw [leaf_eq_ok_iff, hleaves]
      exact List.getElem?_replicate_of_lt (by decide)
    refine ⟨t, htree, ?_⟩
    rw [← hdepth]
    exact ((record_outcome htree zeros 5 .v1).1 _).mpr
      (.tooDeep hleaf (LeafVersion.leaf_of_accepts nofun) (by rw [hdepth]; decide))

end ClaimTree.Tree
