import ClaimTree.Proofs.Batch.Basic
import Mathlib.Data.List.Forall2

namespace ClaimTree

namespace ClaimInput

/-- The claim that these texts write, with the grant of the batch where they name none. -/
structure Denotes (c : ClaimInput) (batchGrant : Option String) (claim : Claim) : Prop where
  grant : (c.grantId.or batchGrant).map Uint256.parse = claim.grantId.map .ok
  receiver : Address.parse c.receiver = .ok claim.receiver
  nullifierHash : Uint256.parse c.nullifierHash = .ok claim.nullifierHash

/-- What is wrong with the first field that cannot be read. -/
inductive Fault (c : ClaimInput) (batchGrant : Option String) : FieldError → Prop
  | grant {text : String} {cause : FieldError} : c.grantId.or batchGrant = some text →
    Uint256.parse text = .error cause → Fault c batchGrant cause
  | receiver {grant : Option Uint256} {cause : FieldError} :
    (c.grantId.or batchGrant).map Uint256.parse = grant.map .ok →
    Address.parse c.receiver = .error cause → Fault c batchGrant cause
  | nullifierHash {grant : Option Uint256} {receiver : Address} {cause : FieldError} :
    (c.grantId.or batchGrant).map Uint256.parse = grant.map .ok →
    Address.parse c.receiver = .ok receiver → Uint256.parse c.nullifierHash = .error cause →
    Fault c batchGrant cause

variable {c : ClaimInput} {batchGrant : Option String}

theorem parse_eq_ok_iff {claim : Claim} :
    c.parse batchGrant = .ok claim ↔ c.Denotes batchGrant claim := by
  simp only [ClaimInput.parse, Claim.parse, grantText, bind_eq_ok_iff, option_mapM_eq_ok_iff]
  constructor
  · rintro ⟨grant, hgrant, receiver, hreceiver, nullifierHash, hnullifierHash, hclaim⟩
    obtain rfl := Except.ok.inj hclaim
    exact ⟨hgrant, hreceiver, hnullifierHash⟩
  · rintro ⟨hgrant, hreceiver, hnullifierHash⟩
    exact ⟨_, hgrant, _, hreceiver, _, hnullifierHash, rfl⟩

theorem parse_eq_error_iff {cause : FieldError} :
    c.parse batchGrant = .error cause ↔ c.Fault batchGrant cause := by
  simp only [ClaimInput.parse, Claim.parse, grantText, bind_eq_error_iff, option_mapM_eq_ok_iff,
    option_mapM_eq_error_iff]
  constructor
  · rintro (⟨text, htext, hcause⟩ | ⟨grant, hgrant, hcause | ⟨receiver, hreceiver,
      hcause | ⟨_, -, hpure⟩⟩⟩)
    · exact .grant htext hcause
    · exact .receiver hgrant hcause
    · exact .nullifierHash hgrant hreceiver hcause
    · cases hpure
  · intro h
    cases h with
    | grant htext hcause => exact .inl ⟨_, htext, hcause⟩
    | receiver hgrant hcause => exact .inr ⟨_, hgrant, .inl hcause⟩
    | nullifierHash hgrant hreceiver hcause =>
      exact .inr ⟨_, hgrant, .inr ⟨_, hreceiver, .inl hcause⟩⟩

end ClaimInput

namespace BatchInput

/-- The first reason for which a described batch is refused. -/
inductive Fault (b : BatchInput) : BatchError → Prop
  | countMismatch : b.claimCount.toNat ≠ b.claims.length →
    Fault b (.countMismatch b.claimCount.toNat b.claims.length)
  | declaredRoot {cause : FieldError} : b.claimCount.toNat = b.claims.length →
    Uint256.parse b.root = .error cause → Fault b (.declaredRoot cause)
  /-- The first claim that cannot be read. -/
  | claim {root : Uint256} {before : List ClaimInput} {c : ClaimInput} {after : List ClaimInput}
    {cause : FieldError} : b.claimCount.toNat = b.claims.length → Uint256.parse b.root = .ok root →
    b.claims = before ++ c :: after →
    (∀ earlier ∈ before, ∃ claim, earlier.Denotes b.grantId claim) → c.Fault b.grantId cause →
    Fault b (.claims (.invalidClaim before.length (.field cause)))

/-- The batch that these texts write: its root has the bytes of a number, and the claims come in
their order. -/
structure Denotes (b : BatchInput) (batch : Batch) : Prop where
  declaredRoot : ∃ root, Uint256.parse b.root = .ok root ∧ batch.declaredRoot.bytes = root.bytes
  capacity : batch.capacity = b.capacity.toNat
  claims : List.Forall₂ (fun c claim => c.Denotes b.grantId claim) b.claims batch.claims

/-- The same batch with the grant written into every claim and none of its own, and with other
proofs, given by the place of the claim. -/
def explicit (b : BatchInput) (proof : Nat → List String) : BatchInput :=
  { b with
    grantId := none
    claims := b.claims.mapIdx fun place c => { c with
      grantId := c.grantId.or b.grantId
      proof := proof place } }

variable {b : BatchInput}

theorem parseFrom_eq_readFrom (batchGrant : Option String) (start : Nat) (cs : List ClaimInput) :
    parseFrom batchGrant start cs =
      readFrom (·.parse batchGrant) (fun place cause => .invalidClaim place (.field cause)) start
        cs := by
  induction cs generalizing start with
  | nil => rfl
  | cons c cs ih => rw [parseFrom, readFrom, ih]

theorem parseClaims_eq_ok_iff {claims : List Claim} :
    b.parseClaims = .ok claims ↔
      List.Forall₂ (fun c claim => c.Denotes b.grantId claim) b.claims claims := by
  have hpointwise : b.claims.map (·.parse b.grantId) = claims.map .ok ↔
      List.Forall₂ (fun c claim => c.parse b.grantId = .ok claim) b.claims claims := by
    rw [← List.forall₂_eq_eq_eq, List.forall₂_map_left_iff, List.forall₂_map_right_iff]
  rw [parseClaims, parseFrom_eq_readFrom, readFrom_eq_ok_iff, hpointwise]
  simp only [ClaimInput.parse_eq_ok_iff]

theorem parseClaims_eq_error_iff {e : TreeError} :
    b.parseClaims = .error e ↔
      ∃ before c after cause, b.claims = before ++ c :: after ∧
        (∀ earlier ∈ before, ∃ claim, earlier.Denotes b.grantId claim) ∧
        c.Fault b.grantId cause ∧ e = .invalidClaim before.length (.field cause) := by
  rw [parseClaims, parseFrom_eq_readFrom, readFrom_eq_error_iff]
  simp only [ClaimInput.parse_eq_ok_iff, ClaimInput.parse_eq_error_iff, Nat.zero_add]

theorem toBatch_eq_error_iff_fault {e : BatchError} : b.toBatch = .error e ↔ b.Fault e := by
  rw [toBatch]
  split
  · next hcount =>
    simp only [bind_eq_error_iff, mapError_eq_error_iff, mapError_eq_ok_iff,
      parseClaims_eq_error_iff]
    constructor
    · rintro (⟨cause, hcause, rfl⟩ | ⟨root, hroot, ⟨_, ⟨before, c, after, cause, hsplit, hbefore,
        hcause, rfl⟩, rfl⟩ | ⟨_, -, hpure⟩⟩)
      · exact .declaredRoot hcount hcause
      · exact .claim hcount hroot hsplit hbefore hcause
      · cases hpure
    · intro h
      cases h with
      | countMismatch hother => exact absurd hcount hother
      | declaredRoot _ hcause => exact .inl ⟨_, hcause, rfl⟩
      | claim _ hroot hsplit hbefore hcause =>
        exact .inr ⟨_, hroot, .inl ⟨_, ⟨_, _, _, _, hsplit, hbefore, hcause, rfl⟩, rfl⟩⟩
  · next hcount =>
    constructor
    · intro h
      obtain rfl := Except.error.inj h
      exact .countMismatch hcount
    · intro h
      cases h with
      | countMismatch => rfl
      | declaredRoot hother => exact absurd hother hcount
      | claim hother => exact absurd hother hcount

/-- Of the claims and the grant of a batch only what each claim is read as counts. -/
theorem toBatch_congr {other : BatchInput} (hroot : other.root = b.root)
    (hcount : other.claimCount = b.claimCount) (hcapacity : other.capacity = b.capacity)
    (hclaims : other.claims.map (·.parse other.grantId) = b.claims.map (·.parse b.grantId)) :
    other.toBatch = b.toBatch := by
  have hlength : other.claims.length = b.claims.length := by
    simpa using congrArg List.length hclaims
  have hparse : other.parseClaims = b.parseClaims := by
    rw [parseClaims, parseClaims, parseFrom_eq_readFrom, parseFrom_eq_readFrom]
    exact readFrom_congr hclaims 0
  rw [toBatch, toBatch, hroot, hcount, hcapacity, hlength, hparse]

theorem toBatch_explicit (b : BatchInput) (proof : Nat → List String) :
    (b.explicit proof).toBatch = b.toBatch := by
  refine toBatch_congr rfl rfl rfl ?_
  apply List.ext_getElem?
  intro place
  rw [explicit, List.getElem?_map, List.getElem?_mapIdx, List.getElem?_map, Option.map_map]
  congr 1
  funext c
  -- The grant written into the claim comes first, and there is none of the batch behind it.
  change Claim.parse ((c.grantId.or b.grantId).or none) _ _ = _
  rw [Option.or_none]
  rfl

theorem toBatch_grant (hown : ∀ c ∈ b.claims, c.grantId ≠ none) (grant : Option String) :
    toBatch { b with grantId := grant } = b.toBatch := by
  refine toBatch_congr rfl rfl rfl (List.map_congr_left fun c hc => ?_)
  obtain ⟨own, hgrant⟩ := Option.ne_none_iff_exists'.mp (hown c hc)
  rw [ClaimInput.parse, ClaimInput.parse, ClaimInput.grantText, ClaimInput.grantText, hgrant,
    Option.some_or, Option.some_or]

/-- Whether a described batch can be read, as which batch, and which error says why not. The grant of
the batch is read where a claim names none and nowhere else. -/
theorem toBatch_outcome (b : BatchInput) :
    (∀ e, b.toBatch = .error e ↔ b.Fault e) ∧
    ((∀ e, ¬b.Fault e) → ∃ batch, b.toBatch = .ok batch ∧ b.Denotes batch) ∧
    (∀ proof, (b.explicit proof).toBatch = b.toBatch) ∧
    ((∀ c ∈ b.claims, c.grantId ≠ none) →
      ∀ grant, toBatch { b with grantId := grant } = b.toBatch) := by
  refine ⟨fun e => toBatch_eq_error_iff_fault, fun hsound => ?_, toBatch_explicit b, toBatch_grant⟩
  cases hbatch : b.toBatch with
  | error e => exact absurd (toBatch_eq_error_iff_fault.mp hbatch) (hsound e)
  | ok batch =>
    obtain ⟨-, root, hroot, hclaims, hdeclared, hcapacity⟩ := toBatch_eq_ok_iff.mp hbatch
    exact ⟨batch, rfl, ⟨root, hroot, congrArg Node.bytes hdeclared⟩, hcapacity,
      parseClaims_eq_ok_iff.mp hclaims⟩

/-- A grant that is no number does no harm as long as every claim names its own, and is the fault of
the first claim that names none. -/
theorem toBatch_outcome_unused_grant :
    let receiver := "0x0000000000000000000000000000000000000000"
    let own : ClaimInput := ⟨some "7", receiver, "1", []⟩
    let bare : ClaimInput := ⟨none, receiver, "2", ["0x00"]⟩
    let described (cs : List ClaimInput) : BatchInput := ⟨some "not-a-grant", "0x0102", 2, 4, cs⟩
    (∃ batch, (described [own, own]).toBatch = .ok batch ∧
      (described [own, own]).Denotes batch ∧
      batch.declaredRoot.bytes.toList = List.replicate 30 0 ++ [1, 2] ∧
      toBatch { described [own, own] with grantId := none } = .ok batch) ∧
    (described [own, bare]).toBatch =
      .error (.claims (.invalidClaim 1 (.field (.integer "not-a-grant")))) ∧
    ((described [own, bare]).explicit fun _ => []).toBatch =
      .error (.claims (.invalidClaim 1 (.field (.integer "not-a-grant")))) := by
  have hread : ClaimInput.parse
      ⟨some "7", "0x0000000000000000000000000000000000000000", "1", []⟩ (some "not-a-grant") =
        .ok ⟨some (.ofUInt64 7), .zero, .ofUInt64 1⟩ := by rfl
  have hroot : Uint256.parse "0x0102" = .ok (.ofUInt64 0x0102) := rfl
  intro receiver own bare described
  have hown : own.Denotes (some "not-a-grant") _ := ClaimInput.parse_eq_ok_iff.mp hread
  have hbare : bare.Fault (some "not-a-grant") (.integer "not-a-grant") := .grant rfl rfl
  obtain ⟨-, hsucceeds, -, hunused⟩ := toBatch_outcome (described [own, own])
  obtain ⟨herror, -, hexplicit, -⟩ := toBatch_outcome (described [own, bare])
  refine ⟨?_, ?_⟩
  · have hparsed : (described [own, own]).parseClaims = .ok [_, _] :=
      parseClaims_eq_ok_iff.mpr (.cons hown (.cons hown .nil))
    have haccepted : (described [own, own]).toBatch = .ok ⟨_, _, _⟩ :=
      toBatch_eq_ok_iff.mpr ⟨rfl, _, hroot, hparsed, rfl, rfl⟩
    obtain ⟨batch, hbatch, hdenotes⟩ := hsucceeds fun e he => by
      cases haccepted.symm.trans (toBatch_eq_error_iff_fault.mpr he)
    refine ⟨batch, hbatch, hdenotes, ?_, (hunused (fun c hc => ?_) none).trans hbatch⟩
    · obtain ⟨root, hread, hbytes⟩ := hdenotes.declaredRoot
      obtain rfl := Except.ok.inj (hroot.symm.trans hread)
      rw [hbytes]
      rfl
    obtain rfl : c = own := by simpa [described] using hc
    exact Option.some_ne_none _
  · have hfault : (described [own, bare]).Fault
        (.claims (.invalidClaim [own].length (.field (.integer "not-a-grant")))) :=
      .claim rfl hroot rfl (fun earlier hearlier => ⟨_, List.mem_singleton.mp hearlier ▸ hown⟩)
        hbare
    have hrefused := (herror _).mpr hfault
    exact ⟨hrefused, (hexplicit fun _ => []).trans hrefused⟩

end BatchInput

end ClaimTree
