import ClaimTree.Proofs.Commitment.Export
import ClaimTree.Proofs.Tree.Join

namespace ClaimTree

/-- A level at which the sibling is on the right leaves the bytes as they are. -/
theorem Orientation.ofFlags_concat_false {flags : List Bool} {o : Orientation}
    (h : ofFlags flags = .ok o) (hlength : flags.length < 32) :
    ofFlags (flags ++ [false]) = .ok o := by
  obtain ⟨-, hbytes⟩ := toList_of_ofFlags h
  have hconcat : (flags ++ [false]).length ≤ 32 := by
    rw [List.length_append]
    exact hlength
  obtain ⟨longer, hlonger, -⟩ := exists_ofFlags hconcat
  obtain ⟨-, hbytes'⟩ := toList_of_ofFlags hlonger
  have hrest : 32 - flags.length = 32 - (flags ++ [false]).length + 1 := by
    rw [List.length_append, List.length_singleton]
    omega
  rw [hlonger]
  refine congrArg Except.ok (Orientation.ext (Bytes.ext ?_))
  rw [hbytes', hbytes, hrest, List.replicate_succ, List.map_append, List.append_assoc]
  rfl

/-- The records of the first of two trees side by side go on to the root of the second. -/
theorem Tree.Perfect.record_join {t u : Tree} {claim : Claim} {index : Nat} {version : LeafVersion}
    {record : ClaimRecord} (ht : t.Perfect) (hdepth : t.depth = u.depth)
    (hroom : t.depth < Capacity.maxDepth) (h : t.record claim index version = .ok record) :
    (t.join u).record claim index version = .ok
      { record with root := (t.join u).root, siblings := record.siblings ++ [u.root] } := by
  obtain ⟨haccepts, hleaf, orientation, ho, rfl⟩ := record_eq_ok_iff.mp h
  obtain ⟨hindex, -⟩ := List.getElem?_eq_some_iff.mp hleaf
  have hsteps := ht.steps_join hdepth hindex
  refine record_eq_ok_iff.mpr ⟨haccepts, ?_, orientation, ?_, ?_⟩
  · rw [leaves_join hdepth, List.getElem?_append_left hindex, hleaf]
  · rw [hsteps, Path.orientation, Path.sides, List.map_append]
    apply Orientation.ofFlags_concat_false ho
    rw [Path.length_sides, ht.length_steps hindex]
    exact hroom
  · rw [recordWith, hsteps, Path.siblings, List.map_append]
    rfl

theorem paddedClaims_add {claims : List Claim} {capacity : Nat} (hle : claims.length ≤ capacity)
    (more : Nat) :
    paddedClaims claims (capacity + more) =
      paddedClaims claims capacity ++ List.replicate more Claim.padding := by
  have hcount : capacity + more - claims.length = (capacity - claims.length) + more := by omega
  rw [paddedClaims, hcount, ← List.replicate_append_replicate, paddedClaims, List.append_assoc]

namespace Commitment

variable {version : LeafVersion} {claims : List Claim} {k : Commitment} {fill : Tree}

/-- The commitment whose tree goes on to the right with another one. -/
def beside (k : Commitment) (fill : Tree) : Commitment := { k with tree := k.tree.join fill }

theorem Sound.beside (hk : k.Sound) (hfill : fill.Perfect) (hdepth : k.tree.depth = fill.depth)
    (hleaves : fill.leaves = List.replicate k.tree.leafCount k.version.paddingLeaf)
    (hroom : k.tree.depth < Capacity.maxDepth) : (k.beside fill).Sound := by
  have hcount : (k.beside fill).tree.leafCount = 2 * k.tree.leafCount :=
    hk.perfect.leafCount_join hfill hdepth
  refine ⟨hk.perfect.join hfill hdepth, ?_, ?_, hk.accepts, ?_⟩
  · change (k.tree.join fill).depth ≤ _
    rw [Tree.depth_join hdepth]
    exact hroom
  · rw [hcount]
    exact Nat.le_trans hk.claims_le (Nat.le_mul_of_pos_left _ (by decide))
  · change (k.tree.join fill).leaves = (k.beside fill).slots.map k.version.claimNode
    have hslots : (k.beside fill).slots =
        k.slots ++ List.replicate k.tree.leafCount Claim.padding := by
      rw [slots, hcount, Nat.two_mul, slots]
      exact paddedClaims_add hk.claims_le _
    rw [Tree.leaves_join hdepth, hleaves, hk.leaves_eq, hslots, List.map_append,
      List.map_replicate, LeafVersion.paddingLeaf_eq]

theorem Sound.record_beside (hk : k.Sound) (hdepth : k.tree.depth = fill.depth)
    (hroom : k.tree.depth < Capacity.maxDepth) {index : Nat} {record : ClaimRecord}
    (h : k.record index = .ok record) :
    (k.beside fill).record index = .ok
      { record with root := (k.beside fill).root, siblings := record.siblings ++ [fill.root] } := by
  have hclaims : (k.beside fill).claims[index]? = k.claims[index]? := rfl
  rw [Commitment.record] at h ⊢
  rw [hclaims]
  cases hclaim : k.claims[index]? with
  | none =>
    rw [hclaim] at h
    cases h
  | some claim =>
    rw [hclaim] at h
    exact hk.perfect.record_join hdepth hroom h

/-- Under twice the capacity the root is that of before combined with a node that comes from the
padding leaf alone, and each record is that of before with this node as one more sibling. -/
theorem commit_two_mul_capacity {depth : Nat} (h : commit version claims (2 ^ depth) = .ok k)
    (hdepth : depth < 32) :
    ∃ k', commit version claims (2 * 2 ^ depth) = .ok k' ∧
      k'.root = k.root.combine (version.paddingLeaf.doubled depth) ∧
      ∀ index < claims.length, ∃ record, k.record index = .ok record ∧
        k'.record index = .ok { record with
          root := k'.root
          siblings := record.siblings ++ [version.paddingLeaf.doubled depth] } := by
  obtain ⟨hk, rfl, rfl, hcount⟩ := commit_eq_ok_iff.mp h
  obtain rfl : k.tree.depth = depth := hk.perfect.depth_eq hcount
  obtain ⟨fill, hfill, hleaves⟩ := Tree.exists_perfect k.tree.depth
    (List.replicate (2 ^ k.tree.depth) k.version.paddingLeaf) List.length_replicate
  have hfillCount : fill.leafCount = 2 ^ k.tree.depth := by
    rw [Tree.leafCount, hleaves, List.length_replicate]
  have hequal : k.tree.depth = fill.depth := (hfill.depth_eq hfillCount).symm
  have hroot : fill.root = k.version.paddingLeaf.doubled k.tree.depth := by
    rw [hequal]
    exact hfill.root_eq_doubled (by rw [hleaves, hfillCount])
  rw [← hroot]
  refine ⟨k.beside fill, commit_eq_ok_iff.mpr ⟨?_, rfl, rfl, ?_⟩, Tree.root_join hequal, ?_⟩
  · exact hk.beside hfill hequal (by rw [hleaves, hcount]) hdepth
  · rw [← hcount]
    exact hk.perfect.leafCount_join hfill hequal
  · intro index hindex
    obtain ⟨record, hrecord, -⟩ := hk.exists_record (List.getElem?_eq_getElem hindex)
    exact ⟨record, hrecord, hk.record_beside hequal hdepth hrecord⟩

theorem commit_two_mul_capacity_three_claims :
    let claims := [1, 2, 3].map fun n => (⟨some (.ofUInt64 n), .zero, .ofUInt64 n⟩ : Claim)
    let padding := LeafVersion.v2.paddingLeaf
    let fill := (padding.combine padding).combine (padding.combine padding)
    ∃ k k', commit .v2 claims (2 ^ 2) = .ok k ∧ commit .v2 claims 8 = .ok k' ∧
      k'.root = k.root.combine fill ∧ ∃ record, k.record 2 = .ok record ∧
        k'.record 2 =
          .ok { record with root := k'.root, siblings := record.siblings ++ [fill] } := by
  intro claims padding fill
  have haccepts : ∀ claim ∈ claims, LeafVersion.v2.Accepts claim := by
    intro claim hclaim _
    obtain ⟨n, -, rfl⟩ := List.mem_map.mp hclaim
    rfl
  obtain ⟨k, hk⟩ : ∃ k, commit .v2 claims (2 ^ 2) = .ok k :=
    exists_commit (by decide) (by decide) haccepts
  obtain ⟨k', hk', hroot, hrecords⟩ := commit_two_mul_capacity hk (by decide)
  obtain ⟨record, hrecord, hrecord'⟩ := hrecords 2 (by decide)
  exact ⟨k, k', hk, hk', hroot, record, hrecord, hrecord'⟩

end Commitment

end ClaimTree
