import ClaimTree.Commitment
import ClaimTree.Proofs.Capacity
import ClaimTree.Proofs.Tree.Perfect

namespace ClaimTree.Commitment

def slots (k : Commitment) : List Claim := paddedClaims k.claims k.tree.leafCount

/-- The commitment is one that `commit` builds. -/
structure Sound (k : Commitment) : Prop where
  perfect : k.tree.Perfect
  depth_le : k.tree.depth ≤ Capacity.maxDepth
  claims_le : k.claims.length ≤ k.tree.leafCount
  accepts : ∀ claim ∈ k.claims, k.version.Accepts claim
  leaves_eq : k.tree.leaves = k.slots.map k.version.claimNode

theorem commit_eq_ok_iff {version : LeafVersion} {claims : List Claim} {capacity : Nat}
    {k : Commitment} :
    commit version claims capacity = .ok k ↔
      k.Sound ∧ k.version = version ∧ k.claims = claims ∧ k.tree.leafCount = capacity := by
  simp only [commit, bind_eq_ok_iff, LeafVersion.paddedLeaves_eq_ok_iff, Tree.ofLeaves_eq_ok_iff]
  constructor
  · rintro ⟨_, ⟨hcheck, haccepts, rfl⟩, t, ⟨hperfect, hleaves⟩, hk⟩
    obtain rfl := Except.ok.inj hk
    obtain ⟨hle, depth, hdepth, hcapacity⟩ := Capacity.check_eq_ok_iff.mp hcheck
    have hcount : t.leafCount = capacity := by
      rw [Tree.leafCount, hleaves, List.length_map, length_paddedClaims hle]
    obtain rfl := hperfect.depth_eq (hcount.trans hcapacity)
    refine ⟨⟨hperfect, hdepth, Nat.le_trans hle (Nat.le_of_eq hcount.symm), haccepts, ?_⟩,
      rfl, rfl, hcount⟩
    rw [slots, hcount]
    exact hleaves
  · rintro ⟨hk, rfl, rfl, rfl⟩
    have hcheck : Capacity.check k.claims.length k.tree.leafCount = .ok () :=
      Capacity.check_eq_ok_iff.mpr
        ⟨hk.claims_le, k.tree.depth, hk.depth_le, hk.perfect.leafCount_eq⟩
    exact ⟨_, ⟨hcheck, hk.accepts, rfl⟩, k.tree, ⟨hk.perfect, hk.leaves_eq⟩, rfl⟩

theorem exists_commit {version : LeafVersion} {claims : List Claim} {depth : Nat}
    (hdepth : depth ≤ Capacity.maxDepth) (hle : claims.length ≤ 2 ^ depth)
    (haccepts : ∀ claim ∈ claims, version.Accepts claim) :
    ∃ k, commit version claims (2 ^ depth) = .ok k := by
  have hcheck := Capacity.check_eq_ok_iff.mpr ⟨hle, depth, hdepth, rfl⟩
  have hleaves := LeafVersion.paddedLeaves_eq_ok_iff.mpr ⟨hcheck, haccepts, rfl⟩
  obtain ⟨t, ht, ht'⟩ := Tree.exists_perfect depth
    ((paddedClaims claims (2 ^ depth)).map version.claimNode)
    (by rw [List.length_map, length_paddedClaims hle])
  have htree := Tree.ofLeaves_eq_ok_iff.mpr ⟨ht, ht'⟩
  exact ⟨⟨version, claims, t⟩, bind_eq_ok_iff.mpr ⟨_, hleaves, bind_eq_ok_iff.mpr ⟨t, htree, rfl⟩⟩⟩

variable {k : Commitment} {index : Nat} {claim : Claim}

theorem slot_of_claim (hclaim : k.claims[index]? = some claim) : k.slots[index]? = some claim := by
  obtain ⟨hindex, -⟩ := List.getElem?_eq_some_iff.mp hclaim
  rw [slots, paddedClaims, List.getElem?_append_left hindex, hclaim]

namespace Sound

theorem accepts_slot (hk : k.Sound) (hclaim : claim ∈ k.slots) : k.version.Accepts claim :=
  LeafVersion.accepts_of_mem_paddedClaims hk.accepts claim hclaim

theorem leaf_of_slot (hk : k.Sound) (hclaim : k.slots[index]? = some claim) :
    k.tree.leaves[index]? = some (k.version.claimNode claim) := by
  rw [hk.leaves_eq, List.getElem?_map, hclaim]
  rfl

theorem length_slots (hk : k.Sound) : k.slots.length = k.tree.leafCount :=
  length_paddedClaims hk.claims_le

end Sound

end ClaimTree.Commitment
