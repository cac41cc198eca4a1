import ClaimTree.Proofs.Batch.Basic
import ClaimTree.Proofs.Command.Basic
import ClaimTree.Proofs.Commitment.Basic
import ClaimTree.Proofs.Node

namespace ClaimTree

/-- The texts that write a node as a number: its digits in either base, with any number of zeros in
front and white space around. -/
inductive Node.WrittenAs (n : Node) : String → Prop
  | hexadecimal {before after : List Char} (zeros : Nat) :
    Text.Blank before → Text.Blank after →
    WrittenAs n (String.ofList
      (before ++ ('0' :: 'x' :: (Text.zeros zeros ++ Text.hexDigits n.bytes.toList) ++ after)))
  | decimal {before after : List Char} (zeros : Nat) :
    Text.Blank before → Text.Blank after →
    WrittenAs n (String.ofList
      (before ++ (Text.zeros zeros ++ Nat.toDigits 10 n.bytes.toNat ++ after)))

namespace Node.WrittenAs

theorem parse {n : Node} {t : String} (h : n.WrittenAs t) : Uint256.parse t = .ok n.toUint256 := by
  cases h with
  | hexadecimal zeros hbefore hafter => exact Uint256.parse_hexDigits n.bytes zeros hbefore hafter
  | decimal zeros hbefore hafter =>
    exact Uint256.parse_decimalDigits n.toUint256 zeros hbefore hafter

theorem text (n : Node) : n.WrittenAs n.text := by
  have hwritten := hexadecimal (n := n) 0 Text.blank_nil Text.blank_nil
  rwa [List.append_nil] at hwritten

/-- The line in which a root is printed. -/
theorem line (n : Node) : n.WrittenAs (n.text ++ "\n") := by
  have hbreak : Text.Blank ['\n'] := List.forall_mem_singleton.mpr rfl
  have hwritten := hexadecimal (n := n) 0 Text.blank_nil hbreak
  rwa [List.nil_append, String.ofList_append] at hwritten

theorem shortest (n : Node) : n.WrittenAs n.toUint256.decimal := by
  have hwritten := decimal (n := n) 0 Text.blank_nil Text.blank_nil
  rwa [List.append_nil] at hwritten

end Node.WrittenAs

namespace BatchInput

/-- Only the declared root depends on the text in its place. -/
theorem toBatch_root {b : BatchInput} {batch : Batch} (h : b.toBatch = .ok batch) (t : String) :
    toBatch { b with root := t } =
      (Uint256.parse t).mapError .declaredRoot >>= fun declared =>
        .ok { batch with declaredRoot := Node.ofUint256 declared } := by
  obtain ⟨hcount, -, -, hclaims, -, hcapacity⟩ := toBatch_eq_ok_iff.mp h
  have hparse : parseClaims { b with root := t } = .ok batch.claims := hclaims
  rw [toBatch, if_pos hcount, hparse, hcapacity]
  cases Uint256.parse t <;> rfl

end BatchInput

section DeclaredRoot

variable {b : BatchInput} {contents : ByteArray} {fs : Files} {path : String}
  {version : LeafVersion} {k : Commitment}

/-- Whatever text is declared as the root of a batch that is committed to, the outcome is a
comparison of its number with the root of the commitment. -/
theorem result_loadCommitment_root {batch : Batch} {t : String} (hbatch : b.toBatch = .ok batch)
    (hk : Commitment.commit version batch.claims batch.capacity = .ok k)
    (hheld : BatchInput.HeldBy { b with root := t } contents) (hread : fs.read path = .ok contents)
    (allow : Bool) :
    ((loadCommitment ⟨path, version, allow⟩).run fs).2.result =
      match Uint256.parse t with
      | .error cause => .error (.load (.batch (.declaredRoot cause)))
      | .ok declared =>
        if declared = k.root.toUint256 ∨ allow = true then .ok k
        else .error (.rootMismatch (.ofUint256 declared) k.root) := by
  rw [result_loadCommitment, hread, hheld.ofContents, BatchInput.toBatch_root hbatch t]
  cases Uint256.parse t with
  | error cause => rfl
  | ok declared =>
    change ((Commitment.commit version batch.claims batch.capacity).mapError
      CommandError.commit >>= _) = _
    rw [hk]
    change ((checkRoot (.ofUint256 declared) k.root allow).result >>= fun _ => Except.ok k) = _
    simp only [result_checkRoot, Node.ofUint256_eq_iff]
    split <;> rfl

/-- The number of the declared root is compared with the root of the commitment and changes nothing
else. What is printed as the root is accepted in its place, and so are its digits in either base. -/
theorem loadCommitment_declare (hheld : b.HeldBy contents) (hread : fs.read path = .ok contents)
    (hk : ((loadCommitment ⟨path, version, true⟩).run fs).2.result = .ok k) (t : String) :
    (∃ contents, BatchInput.HeldBy { b with root := t } contents) ∧
    ∀ (fs : Files) (path : String) (contents : ByteArray), fs.read path = .ok contents →
      BatchInput.HeldBy { b with root := t } contents →
      (∀ cause, Uint256.parse t = .error cause → ∀ allow,
        ((loadCommitment ⟨path, version, allow⟩).run fs).2.result =
          .error (.load (.batch (.declaredRoot cause)))) ∧
      (∀ declared, Uint256.parse t = .ok declared →
        ((loadCommitment ⟨path, version, true⟩).run fs).2.result = .ok k ∧
        (((loadCommitment ⟨path, version, false⟩).run fs).2.result = .ok k ↔
          declared.val = k.root.bytes.toNat) ∧
        (declared.val ≠ k.root.bytes.toNat → ∃ e,
          ((loadCommitment ⟨path, version, false⟩).run fs).2.result = .error e ∧
          e.chain = [.message ("root mismatch: declared " ++ Text.hexText declared.toBytes.toList ++
            ", computed " ++ k.root.text)])) ∧
      (k.root.WrittenAs t →
        ((loadCommitment ⟨path, version, false⟩).run fs).2.result = .ok k) := by
  obtain ⟨batch, hbatch, hcommit⟩ := (result_loadCommitment_eq_ok_iff hheld hread).mp hk
  refine ⟨⟨_, BatchInput.heldBy_toJson _ .compact⟩, fun fs path contents hread hheld => ?_⟩
  have hresult := result_loadCommitment_root hbatch hcommit hheld hread
  refine ⟨fun cause hcause allow => ?_, fun declared hdeclared => ⟨?_, ?_, fun hdiffers => ?_⟩,
    fun hwritten => ?_⟩
  · rw [hresult, hcause]
  · rw [hresult, hdeclared]
    exact if_pos (.inr rfl)
  · have hvalue : declared = k.root.toUint256 ↔ declared.val = k.root.bytes.toNat :=
      Uint256.val_injective.eq_iff.symm
    rw [hresult, hdeclared]
    by_cases hroot : declared = k.root.toUint256
    · exact iff_of_true (if_pos (.inl hroot)) (hvalue.mp hroot)
    · refine iff_of_false (fun hok => ?_) fun h => hroot (hvalue.mpr h)
      dsimp only at hok
      rw [if_neg (by simp [hroot])] at hok
      cases hok
  · have hroot : declared ≠ k.root.toUint256 := fun h => hdiffers (congrArg Uint256.val h)
    refine ⟨.rootMismatch (.ofUint256 declared) k.root, ?_, rfl⟩
    rw [hresult, hdeclared]
    exact if_neg (by simp [hroot])
  · rw [hresult, hwritten.parse]
    exact if_pos (.inl rfl)

/-- A file with the batch, one with its root as it was printed, and one with no root at all. -/
theorem loadCommitment_declare_one_claim :
    let receiver := "0x0000000000000000000000000000000000000000"
    let b : BatchInput := ⟨none, "0", 1, 1, [⟨none, receiver, "7", []⟩]⟩
    let held (root : String) : Files := (Files.empty ⟨["w"]⟩).put ⟨["w", "batch.json"]⟩
      (.file (BatchInput.toJson { b with root := root } |>.text .pretty).toUTF8)
    ∃ k,
      ((loadCommitment ⟨"batch.json", .v1, true⟩).run (held "0")).2.result = .ok k ∧
      ((loadCommitment ⟨"/w/batch.json", .v1, false⟩).run (held (k.root.text ++ "\n"))).2.result =
        .ok k ∧
      ((loadCommitment ⟨"batch.json", .v1, true⟩).run (held "12,5")).2.result =
        .error (.load (.batch (.declaredRoot (.integer "12,5")))) := by
  have hbatch : BatchInput.toBatch
      ⟨none, "0", 1, 1, [⟨none, "0x0000000000000000000000000000000000000000", "7", []⟩]⟩ =
        .ok ⟨.ofUint256 .zero, 1, [⟨none, .zero, .ofUInt64 7⟩]⟩ := by rfl
  intro receiver b held
  obtain ⟨k, hcommit⟩ : ∃ k, Commitment.commit .v1 [⟨none, .zero, .ofUInt64 7⟩] (2 ^ 0) = .ok k :=
    Commitment.exists_commit (by decide) (by decide) fun claim hclaim => nofun
  have hheld (root : String) := BatchInput.heldBy_toJson { b with root := root } .pretty
  have hk : ((loadCommitment ⟨"batch.json", .v1, true⟩).run (held "0")).2.result = .ok k :=
    (result_loadCommitment_eq_ok_iff (hheld "0") rfl).mpr ⟨_, hbatch, hcommit⟩
  have hprinted := (loadCommitment_declare (hheld "0") rfl hk (k.root.text ++ "\n")).2
    (held (k.root.text ++ "\n")) "/w/batch.json" _ rfl (hheld _)
  have hgarbled := (loadCommitment_declare (hheld "0") rfl hk "12,5").2
    (held "12,5") "batch.json" _ rfl (hheld _)
  exact ⟨k, hk, hprinted.2.2 (.line k.root), hgarbled.1 _ rfl true⟩

end DeclaredRoot

end ClaimTree
