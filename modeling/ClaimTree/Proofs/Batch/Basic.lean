import ClaimTree.Batch.Basic
import ClaimTree.Proofs.Except

namespace ClaimTree.BatchInput

theorem toBatch_eq_ok_iff {b : BatchInput} {batch : Batch} :
    b.toBatch = .ok batch ↔
      b.claimCount.toNat = b.claims.length ∧ ∃ root, Uint256.parse b.root = .ok root ∧
        b.parseClaims = .ok batch.claims ∧ batch.declaredRoot = Node.ofUint256 root ∧
        batch.capacity = b.capacity.toNat := by
  rw [toBatch]
  split
  · next hcount =>
    simp only [bind_eq_ok_iff, mapError_eq_ok_iff]
    constructor
    · rintro ⟨root, hroot, claims, hclaims, hbatch⟩
      obtain rfl := Except.ok.inj hbatch
      exact ⟨hcount, root, hroot, hclaims, rfl, rfl⟩
    · rintro ⟨-, root, hroot, hclaims, hdeclared, hcapacity⟩
      refine ⟨root, hroot, batch.claims, hclaims, ?_⟩
      rw [← hdeclared, ← hcapacity]
      rfl
  · next hcount => exact iff_of_false nofun fun h => hcount h.1

end ClaimTree.BatchInput
