import ClaimTree.Proofs.Bytes
import ClaimTree.Uint256

namespace ClaimTree.Uint256

/-- The number of integers of 256 bits. -/
def size : Nat := Bytes.count 32

/-- The integer of a number, as far as the number fits. -/
def ofNat (v : Nat) : Uint256 := ⟨Bytes.ofNat 32 v⟩

variable {v : Nat}

theorem size_eq : size = 2 ^ 256 := Bytes.count_eq 32

theorem val_lt (n : Uint256) : n.val < size := n.bytes.toNat_lt

theorem val_injective : Function.Injective val :=
  fun _ _ h => Uint256.ext (Bytes.toNat_injective h)

theorem val_ofNat (h : v < size) : (ofNat v).val = v := Bytes.toNat_ofNat h

theorem ofNat_val (n : Uint256) : ofNat n.val = n := Uint256.ext (Bytes.ofNat_toNat n.bytes)

theorem val_zero : zero.val = 0 := rfl

theorem ofUInt64_eq (n : UInt64) : ofUInt64 n = ofNat n.toNat := by
  have hvalue : Bytes.value (Bytes.ofNat 8 n.toNat).toList = n.toNat :=
    Bytes.toNat_ofNat n.toNat_lt
  rw [ofUInt64, Bytes.copyTail?_zero (by decide), hvalue]
  rfl

theorem val_ofUInt64 (n : UInt64) : (ofUInt64 n).val = n.toNat := by
  rw [ofUInt64_eq, val_ofNat]
  exact Nat.lt_trans n.toNat_lt (by decide)

theorem bits_le_iff {count : Nat} : bits v ≤ count ↔ v < 2 ^ count := by
  by_cases hv : v = 0
  · rw [bits, if_pos hv, hv]
    exact iff_of_true (Nat.zero_le count) (Nat.two_pow_pos count)
  · rw [bits, if_neg hv, Nat.succ_le_iff, Nat.log2_lt hv]

theorem bits_le_iff_lt : bits v ≤ 256 ↔ v < size := by
  rw [bits_le_iff, size_eq]

/-- A number has few enough bytes just when it has few enough binary digits. -/
theorem length_minimal_le_iff_lt : (Bytes.minimal v).length ≤ 32 ↔ v < size :=
  Bytes.length_minimal_le_iff (by decide)

/-- The fewest bytes of a number that fits can be copied behind zeros. -/
theorem exists_copyTail?_minimal (h : v < size) : ∃ hlength : (Bytes.minimal v).length ≤ 32,
    (Bytes.zero 32).copyTail? (32 - (Bytes.minimal v).length) (Bytes.minimal v)
      (fun _ => Nat.sub_add_cancel hlength) = some (ofNat v).bytes := by
  refine ⟨length_minimal_le_iff_lt.mpr h, ?_⟩
  rw [Bytes.copyTail?_zero (Nat.sub_le 32 _), Bytes.value_minimal]
  rfl

/-- The number of binary digits alone decides. -/
theorem fromNat_eq (v : Nat) (text : String) :
    fromNat v text = if v < size then .ok (ofNat v) else .error (.overflow text) := by
  by_cases hfits : v < size
  · obtain ⟨hlength, hcopy⟩ := exists_copyTail?_minimal hfits
    have hbits : ¬256 < bits v := Nat.not_lt.mpr (bits_le_iff_lt.mpr hfits)
    simp only [fromNat, if_neg hbits, dif_pos hlength, hcopy, if_pos hfits]
  · have hbits : 256 < bits v := Nat.lt_of_not_le fun h => hfits (bits_le_iff_lt.mp h)
    rw [fromNat, if_pos hbits, if_neg hfits]

/-- Behind 24 zeros there is room for the eight bytes of a small number. -/
theorem exists_copyTail?_ofUInt64 (n : UInt64) :
    ∃ hlength, (Bytes.zero 32).copyTail? (32 - 8) (Bytes.ofNat 8 n.toNat).toList hlength =
      some (ofUInt64 n).bytes := by
  have hlength : 32 - 8 ≤ 32 → 32 - 8 + (Bytes.ofNat 8 n.toNat).toList.length = 32 := by
    rw [Bytes.length_toList]
    decide
  refine ⟨hlength, ?_⟩
  rw [ofUInt64, Bytes.copyTail?_zero (by decide)]
  rfl

end ClaimTree.Uint256
