import ClaimTree.Bytes
import Mathlib.Algebra.Group.Nat.Defs

namespace ClaimTree

namespace Bytes

theorem count_eq (n : Nat) : count n = 2 ^ (8 * n) := by
  rw [pow_mul]
  rfl

theorem value_cons (b : UInt8) (bs : List UInt8) :
    value (b :: bs) = b.toNat * count bs.length + value bs := by
  suffices h : ∀ v, bs.foldl (fun v b => v * 256 + b.toNat) v = v * count bs.length + value bs by
    simpa [value] using h b.toNat
  induction bs with
  | nil => simp [value, count]
  | cons c cs ih =>
    intro v
    have hc : value (c :: cs) = c.toNat * count cs.length + value cs := by
      simpa [value] using ih c.toNat
    calc (c :: cs).foldl (fun v b => v * 256 + b.toNat) v
        = (v * 256 + c.toNat) * count cs.length + value cs := ih _
      _ = v * count (c :: cs).length + value (c :: cs) := by
        rw [hc, List.length_cons, count_succ, Nat.add_mul, Nat.mul_assoc, Nat.mul_comm 256,
          Nat.add_assoc]

/-- The digits of a number denote it as far as there is room. -/
theorem value_digits (n v : Nat) : value (digits n v) = v % count n := by
  induction n with
  | zero => simp [digits, value, count, Nat.mod_one]
  | succ n ih =>
    have hshift : v >>> (8 * n) = v / count n := by
      rw [Nat.shiftRight_eq_div_pow, count_eq]
    rw [digits, value_cons, length_digits, ih, hshift, UInt8.toNat_ofNat', count_succ, Nat.mod_mul,
      Nat.mul_comm, Nat.add_comm]

theorem toNat_ofNat {n v : Nat} (h : v < count n) : (ofNat n v).toNat = v := by
  rw [toNat, ofNat, value_digits, Nat.mod_eq_of_lt h]

theorem eq_of_value_eq {as bs : List UInt8} (hlength : as.length = bs.length)
    (h : value as = value bs) : as = bs := by
  induction as generalizing bs with
  | nil => exact (List.eq_nil_of_length_eq_zero hlength.symm).symm
  | cons a as ih =>
    cases bs with
    | nil => cases hlength
    | cons b bs =>
      have hrest : as.length = bs.length := Nat.succ.inj hlength
      rw [value_cons, value_cons, hrest] at h
      have hlt : value as < count bs.length := hrest ▸ value_lt as
      have hpos : 0 < count bs.length := Nat.zero_lt_of_lt hlt
      have hhead := congrArg (· / count bs.length) h
      have htail := congrArg (· % count bs.length) h
      simp only [Nat.mul_comm _ (count bs.length), Nat.mul_add_div hpos, Nat.mul_add_mod,
        Nat.div_eq_of_lt hlt, Nat.div_eq_of_lt (value_lt bs), Nat.mod_eq_of_lt hlt,
        Nat.mod_eq_of_lt (value_lt bs), Nat.add_zero] at hhead htail
      rw [UInt8.toNat_inj.mp hhead, ih hrest htail]

theorem toNat_injective {n : Nat} : Function.Injective (toNat : Bytes n → Nat) := by
  intro a b h
  exact Bytes.ext (eq_of_value_eq (a.length_toList.trans b.length_toList.symm) h)

theorem ofNat_toNat {n : Nat} (b : Bytes n) : ofNat n b.toNat = b :=
  toNat_injective (toNat_ofNat b.toNat_lt)

theorem append_inj {n : Nat} {a b : Bytes n} {s t : List UInt8}
    (h : a.toList ++ s = b.toList ++ t) : a = b ∧ s = t := by
  obtain ⟨hbytes, hrest⟩ := List.append_inj h (by rw [a.length_toList, b.length_toList])
  exact ⟨Bytes.ext hbytes, hrest⟩

theorem value_concat (bs : List UInt8) (b : UInt8) :
    value (bs ++ [b]) = value bs * 256 + b.toNat := by
  rw [value, List.foldl_append]
  rfl

theorem value_zeros_append (count : Nat) (bs : List UInt8) :
    value (List.replicate count 0 ++ bs) = value bs := by
  induction count with
  | zero => rfl
  | succ count ih =>
    rw [List.replicate_succ, List.cons_append, value_cons, ih]
    exact (congrArg (· + value bs) (Nat.zero_mul _)).trans (Nat.zero_add _)

theorem value_lowDigits {fuel v : Nat} (h : v ≤ fuel) : value (lowDigits fuel v).reverse = v := by
  induction fuel generalizing v with
  | zero => exact (Nat.le_zero.mp h).symm
  | succ fuel ih =>
    by_cases hv : v = 0
    · rw [lowDigits, if_pos hv, hv]
      rfl
    · have hrest : v / 256 ≤ fuel := by omega
      rw [lowDigits, if_neg hv, List.reverse_cons, value_concat, ih hrest, UInt8.toNat_ofNat']
      exact Nat.div_add_mod' v 256

theorem length_lowDigits_le_iff {fuel v n : Nat} (h : v ≤ fuel) :
    (lowDigits fuel v).length ≤ n ↔ v < count n := by
  have hpos (n : Nat) : 0 < count n := Nat.pow_pos (by decide)
  induction fuel generalizing v n with
  | zero =>
    rw [Nat.le_zero.mp h]
    exact iff_of_true (Nat.zero_le n) (hpos n)
  | succ fuel ih =>
    by_cases hv : v = 0
    · rw [lowDigits, if_pos hv, hv]
      exact iff_of_true (Nat.zero_le n) (hpos n)
    · rw [lowDigits, if_neg hv, List.length_cons]
      cases n with
      | zero =>
        have hcount : count 0 = 1 := rfl
        omega
      | succ n =>
        have hrest : v / 256 ≤ fuel := by omega
        have hlength : (lowDigits fuel (v / 256)).length ≤ n ↔ v / 256 < count n := ih hrest
        rw [Nat.succ_le_succ_iff, hlength, count_succ, Nat.div_lt_iff_lt_mul (by decide)]

theorem value_minimal (v : Nat) : value (minimal v) = v := by
  by_cases hv : v = 0
  · rw [minimal, if_pos hv, hv]
    rfl
  · rw [minimal, if_neg hv, value_lowDigits (Nat.le_refl v)]

theorem length_minimal_le_iff {n v : Nat} (hn : 0 < n) :
    (minimal v).length ≤ n ↔ v < count n := by
  by_cases hv : v = 0
  · rw [minimal, if_pos hv, hv]
    exact iff_of_true hn (Nat.pow_pos (by decide))
  · rw [minimal, if_neg hv, List.length_reverse, length_lowDigits_le_iff (Nat.le_refl v)]

/-- Bytes that are copied behind zeros keep the number that they write. -/
theorem copyTail?_zero {n offset : Nat} {tail : List UInt8} (h : offset ≤ n)
    (hlength : offset ≤ n → offset + tail.length = n) :
    (zero n).copyTail? offset tail hlength = some (ofNat n (value tail)) := by
  have hle : tail.length ≤ n := by
    have hsum := hlength h
    omega
  have hlt : value tail < count n :=
    Nat.lt_of_lt_of_le (value_lt tail) (Nat.pow_le_pow_right (by decide) hle)
  rw [copyTail?, dif_pos h, Option.some_inj]
  apply toNat_injective
  rw [toNat_ofNat hlt]
  change value ((List.replicate n 0).take offset ++ tail) = value tail
  rw [List.take_replicate, value_zeros_append]

end Bytes

end ClaimTree
