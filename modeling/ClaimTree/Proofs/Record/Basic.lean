import ClaimTree.Proofs.Except
import ClaimTree.Proofs.Leaf
import ClaimTree.Proofs.Orientation
import ClaimTree.Proofs.Tree.Path
import ClaimTree.Record.Basic

namespace ClaimTree.Tree

/-- The record of a claim at a place, with the sides of the path packed already. -/
def recordWith (t : Tree) (claim : Claim) (index : Nat) (orientation : Orientation) :
    ClaimRecord where
  grantId := claim.grantId
  root := t.root
  siblings := Path.siblings (t.steps index)
  orientation
  nullifierHash := claim.nullifierHash
  receiver := claim.receiver
  leafIndex := UInt64.ofNat index

variable {t : Tree} {claim : Claim} {index : Nat} {version : LeafVersion}

theorem record_eq_ok_iff {record : ClaimRecord} :
    t.record claim index version = .ok record ↔
      version.Accepts claim ∧ t.leaves[index]? = some (version.claimNode claim) ∧
      ∃ orientation, Path.orientation (t.steps index) = .ok orientation ∧
        t.recordWith claim index orientation = record := by
  simp only [Tree.record, bind_eq_ok_iff, mapError_eq_ok_iff, LeafVersion.leaf_eq_ok_iff,
    path_eq_ok_iff, leaf_eq_ok_iff]
  constructor
  · rintro ⟨_, ⟨-, rfl⟩, _, ⟨haccepts, rfl⟩, node, hnode, h⟩
    split at h
    · next hsame =>
      obtain ⟨orientation, ho, hrecord⟩ := bind_eq_ok_iff.mp h
      exact ⟨haccepts, hsame ▸ hnode, orientation, ho, Except.ok.inj hrecord⟩
    · cases h
  · rintro ⟨haccepts, hleaf, orientation, ho, rfl⟩
    obtain ⟨hindex, -⟩ := List.getElem?_eq_some_iff.mp hleaf
    refine ⟨_, ⟨hindex, rfl⟩, _, ⟨haccepts, rfl⟩, _, hleaf, ?_⟩
    rw [if_pos rfl]
    exact bind_eq_ok_iff.mpr ⟨orientation, ho, rfl⟩

/-- A record writes down the path from its place. -/
theorem path_of_record {record : ClaimRecord} (h : t.record claim index version = .ok record) :
    record.path = t.steps index := by
  obtain ⟨-, -, orientation, ho, rfl⟩ := record_eq_ok_iff.mp h
  have hlength :
      (Path.siblings (t.steps index)).length = (Path.sides (t.steps index)).length := by
    rw [Path.length_siblings, Path.length_sides]
  rw [ClaimRecord.path, recordWith, hlength, Orientation.flags_of_ofFlags ho,
    Path.zip_siblings_sides]

end ClaimTree.Tree
