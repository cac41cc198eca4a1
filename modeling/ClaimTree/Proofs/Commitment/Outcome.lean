import ClaimTree.Proofs.Commitment.Basic

namespace ClaimTree.Commitment

/-- The first reason for which claims cannot be committed under a capacity. -/
inductive Fault (version : LeafVersion) (claims : List Claim) (capacity : Nat) : TreeError → Prop
  | capacity {e : TreeError} : Capacity.Fault claims.length capacity e →
    Fault version claims capacity e
  /-- The first claim without a grant, where the layout hashes one. -/
  | missingGrant {depth : Nat} {before : List Claim} {claim : Claim} {after : List Claim} :
    claims.length ≤ capacity → capacity = 2 ^ depth → depth ≤ 32 → version = .v2 →
    claims = before ++ claim :: after → (∀ earlier ∈ before, earlier.grantId ≠ none) →
    claim.grantId = none →
    Fault version claims capacity (.invalidClaim before.length .missingGrant)

variable {version : LeafVersion} {claims : List Claim} {capacity : Nat}

/-- Once the capacity has been accepted and the claims have been hashed, nothing can fail. -/
theorem exists_tree_of_leavesFrom {hashes : List Node}
    (hcheck : Capacity.check claims.length capacity = .ok ())
    (hhashes : version.leavesFrom 0 claims = .ok hashes) :
    ∃ leaves t, version.pad hashes capacity = .ok leaves ∧ Tree.ofLeaves leaves = .ok t := by
  obtain ⟨hle, depth, hdepth, rfl⟩ := Capacity.check_eq_ok_iff.mp hcheck
  obtain ⟨haccepts, -⟩ := LeafVersion.leavesFrom_eq_ok_iff.mp hhashes
  -- The claims have a commitment; padded leaves and tree are what it was made of.
  obtain ⟨k, hk⟩ := exists_commit hdepth hle haccepts
  obtain ⟨leaves, hleaves, hk⟩ := bind_eq_ok_iff.mp hk
  obtain ⟨t, htree, -⟩ := bind_eq_ok_iff.mp hk
  obtain ⟨_, -, hleaves⟩ := bind_eq_ok_iff.mp hleaves
  obtain ⟨hashes', hhashes', hpad⟩ := bind_eq_ok_iff.mp hleaves
  obtain rfl := Except.ok.inj (hhashes'.symm.trans hhashes)
  exact ⟨leaves, t, hpad, htree⟩

theorem commit_eq_error_iff {e : TreeError} :
    commit version claims capacity = .error e ↔
      Capacity.check claims.length capacity = .error e ∨
        (Capacity.check claims.length capacity = .ok () ∧
          version.leavesFrom 0 claims = .error e) := by
  cases hcheck : Capacity.check claims.length capacity with
  | error e' =>
    have hcommit : commit version claims capacity = .error e' := by
      rw [commit, LeafVersion.paddedLeaves, hcheck]
      rfl
    simp only [hcommit, Except.error.injEq, reduceCtorEq, false_and, or_false]
  | ok =>
    cases hhashes : version.leavesFrom 0 claims with
    | error e' =>
      have hcommit : commit version claims capacity = .error e' := by
        rw [commit, LeafVersion.paddedLeaves, hcheck, hhashes]
        rfl
      simp only [hcommit, Except.error.injEq, reduceCtorEq, true_and, false_or]
    | ok hashes =>
      obtain ⟨leaves, t, hpad, htree⟩ := exists_tree_of_leavesFrom hcheck hhashes
      have hcommit : commit version claims capacity = .ok ⟨version, claims, t⟩ := by
        rw [commit, LeafVersion.paddedLeaves, hcheck, hhashes]
        exact bind_eq_ok_iff.mpr ⟨leaves, hpad, bind_eq_ok_iff.mpr ⟨t, htree, rfl⟩⟩
      simp only [hcommit, reduceCtorEq, and_false, or_false]

theorem commit_eq_error_iff_fault {e : TreeError} :
    commit version claims capacity = .error e ↔ Fault version claims capacity e := by
  rw [commit_eq_error_iff, Capacity.check_eq_error_iff, Capacity.check_eq_ok_iff,
    LeafVersion.leavesFrom_eq_error_iff]
  constructor
  · rintro (hcapacity | ⟨⟨hle, depth, hdepth, hpow⟩, before, claim, after, hsplit, hbefore,
      hclaim, rfl⟩)
    · exact .capacity hcapacity
    · obtain ⟨rfl, hgrant⟩ := LeafVersion.not_accepts_iff.mp hclaim
      rw [Nat.zero_add]
      refine .missingGrant hle hpow hdepth rfl hsplit (fun earlier hearlier => ?_) hgrant
      exact Option.isSome_iff_ne_none.mp (hbefore earlier hearlier rfl)
  · rintro (hcapacity | ⟨hle, hpow, hdepth, hversion, hsplit, hbefore, hgrant⟩)
    · exact .inl hcapacity
    · refine .inr ⟨⟨hle, _, hdepth, hpow⟩, _, _, _, hsplit, fun earlier hearlier _ => ?_,
        LeafVersion.not_accepts_iff.mpr ⟨hversion, hgrant⟩, by rw [Nat.zero_add]⟩
      exact Option.isSome_iff_ne_none.mpr (hbefore earlier hearlier)

/-- Whether claims can be committed, to which leaves, and which error says why not. An accepted
capacity is neither refused when the leaves are padded nor is it one under which no tree stands. -/
theorem commit_outcome (version : LeafVersion) (claims : List Claim) (capacity : Nat) :
    ((∃ k, commit version claims capacity = .ok k) ↔
      (∃ depth ≤ 32, capacity = 2 ^ depth) ∧ claims.length ≤ capacity ∧
        (version = .v2 → ∀ claim ∈ claims, claim.grantId ≠ none)) ∧
    (∀ k, commit version claims capacity = .ok k →
      k.version = version ∧ k.claims = claims ∧ k.tree.leafCount = capacity ∧
      ∃ hashes : List Node, claims.map version.leaf = hashes.map .ok ∧
        k.tree.leaves =
          hashes ++ List.replicate (capacity - claims.length) version.paddingLeaf) ∧
    (∀ e, commit version claims capacity = .error e ↔ Fault version claims capacity e) ∧
    ∀ hashes, Capacity.check claims.length capacity = .ok () →
      version.leavesFrom 0 claims = .ok hashes →
      ∃ leaves t, version.pad hashes capacity = .ok leaves ∧ Tree.ofLeaves leaves = .ok t := by
  have haccepts : (∀ claim ∈ claims, version.Accepts claim) ↔
      (version = .v2 → ∀ claim ∈ claims, claim.grantId ≠ none) := by
    simp only [LeafVersion.Accepts, Option.isSome_iff_ne_none]
    exact ⟨fun h hversion claim hclaim => h claim hclaim hversion,
      fun h claim hclaim hversion => h hversion claim hclaim⟩
  refine ⟨?_, ?_, fun e => commit_eq_error_iff_fault, fun hashes => exists_tree_of_leavesFrom⟩
  · rw [← haccepts]
    constructor
    · rintro ⟨k, hcommit⟩
      obtain ⟨hk, rfl, rfl, rfl⟩ := commit_eq_ok_iff.mp hcommit
      exact ⟨⟨k.tree.depth, hk.depth_le, hk.perfect.leafCount_eq⟩, hk.claims_le, hk.accepts⟩
    · rintro ⟨⟨depth, hdepth, rfl⟩, hle, hclaims⟩
      exact exists_commit hdepth hle hclaims
  · intro k hcommit
    obtain ⟨hk, rfl, rfl, rfl⟩ := commit_eq_ok_iff.mp hcommit
    refine ⟨rfl, rfl, rfl, k.claims.map k.version.claimNode, ?_, ?_⟩
    · rw [List.map_map]
      exact List.map_congr_left fun claim hclaim =>
        LeafVersion.leaf_of_accepts (hk.accepts claim hclaim)
    · rw [hk.leaves_eq, slots, paddedClaims, List.map_append, List.map_replicate,
        LeafVersion.paddingLeaf_eq]

end ClaimTree.Commitment
