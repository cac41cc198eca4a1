import ClaimTree.Leaf
import ClaimTree.Proofs.Digest

namespace ClaimTree.LeafVersion

/-- A claim has every field that the layout hashes. -/
def Accepts (version : LeafVersion) (claim : Claim) : Prop :=
  version = .v2 → claim.grantId.isSome

/-- Two claims have the same fields as far as the layout hashes them. -/
def SameFields (version : LeafVersion) (a b : Claim) : Prop :=
  a.receiver = b.receiver ∧ a.nullifierHash = b.nullifierHash ∧
    (version = .v2 → a.grantId = b.grantId)

/-- The message of a claim, with zero for a missing grant. -/
def hashed (version : LeafVersion) (claim : Claim) : List UInt8 :=
  version.fields (claim.grantId.getD Uint256.zero) claim

def claimNode (version : LeafVersion) (claim : Claim) : Node := Node.digest (version.hashed claim)

variable {version other : LeafVersion} {claim a b : Claim}

theorem accepts_padding (version : LeafVersion) : version.Accepts Claim.padding := fun _ => rfl

theorem paddingLeaf_eq (version : LeafVersion) :
    version.paddingLeaf = version.claimNode Claim.padding := rfl

theorem leaf_eq_ok_iff {node : Node} :
    version.leaf claim = .ok node ↔ version.Accepts claim ∧ version.claimNode claim = node := by
  obtain ⟨grant, receiver, nullifierHash⟩ := claim
  cases version with
  | v1 =>
    cases grant <;> simp [leaf, message, Except.map, Accepts, claimNode, hashed, Node.digest]
  | v2 =>
    cases grant <;> simp [leaf, message, Except.map, Accepts, claimNode, hashed, Node.digest]

theorem message_of_accepts (h : version.Accepts claim) :
    version.message claim = .ok (version.hashed claim) := by
  obtain ⟨grant, receiver, nullifierHash⟩ := claim
  cases version with
  | v1 => rfl
  | v2 =>
    cases grant with
    | none => cases h rfl
    | some grant => rfl

theorem leaf_of_accepts (h : version.Accepts claim) :
    version.leaf claim = .ok (version.claimNode claim) := leaf_eq_ok_iff.mpr ⟨h, rfl⟩

theorem leaf_eq_error_iff {e : ClaimError} :
    version.leaf claim = .error e ↔ ¬version.Accepts claim ∧ e = .missingGrant := by
  obtain ⟨grant, receiver, nullifierHash⟩ := claim
  cases version with
  | v1 => cases grant <;> simp [leaf, message, Except.map, Accepts]
  | v2 => cases grant <;> simp [leaf, message, Except.map, Accepts, eq_comm]

theorem not_accepts_iff :
    ¬version.Accepts claim ↔ version = .v2 ∧ claim.grantId = none := by
  rw [Accepts, Classical.not_imp, Option.not_isSome_iff_eq_none]

theorem length_hashed (version : LeafVersion) (claim : Claim) :
    (version.hashed claim).length = match version with
      | .v1 => 52
      | .v2 => 84 := by
  cases version <;> simp [hashed, fields, Bytes.length_toList]

theorem length_hashed_ne (version : LeafVersion) (claim : Claim) :
    (version.hashed claim).length ≠ 64 := by
  rw [length_hashed]
  cases version <;> decide

theorem sameFields_of_hashed_eq (ha : version.Accepts a) (hb : version.Accepts b)
    (h : version.hashed a = version.hashed b) : version.SameFields a b := by
  cases version with
  | v1 =>
    obtain ⟨hreceiver, hnullifier⟩ := Bytes.append_inj h
    exact ⟨Address.ext hreceiver, Uint256.ext (Bytes.ext hnullifier), nofun⟩
  | v2 =>
    obtain ⟨hgrant, htail⟩ := Bytes.append_inj h
    obtain ⟨hreceiver, hnullifier⟩ := Bytes.append_inj htail
    obtain ⟨grant, hgrantA⟩ := Option.isSome_iff_exists.mp (ha rfl)
    obtain ⟨grant', hgrantB⟩ := Option.isSome_iff_exists.mp (hb rfl)
    refine ⟨Address.ext hreceiver, Uint256.ext (Bytes.ext hnullifier), fun _ => ?_⟩
    rw [hgrantA, hgrantB] at hgrant ⊢
    exact congrArg some (Uint256.ext hgrant)

/-- A message determines its layout and, within it, the fields. -/
theorem eq_of_hashed_eq (ha : version.Accepts a) (hb : other.Accepts b)
    (h : version.hashed a = other.hashed b) : version = other ∧ version.SameFields a b := by
  have hversion : version = other := by
    have hlength := congrArg List.length h
    rw [length_hashed, length_hashed] at hlength
    cases version <;> cases other <;> simp_all
  subst other
  exact ⟨rfl, sameFields_of_hashed_eq ha hb h⟩

end ClaimTree.LeafVersion
