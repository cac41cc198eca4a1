import ClaimTree.Proofs.Address

namespace ClaimTree.Address

open Text

/-- The half of a byte at a place, two places a byte and the high half first. -/
def nibble? (bs : List UInt8) (place : Nat) : Option Nat :=
  bs[place / 2]?.map fun b => if place % 2 = 0 then b.toNat / 16 else b.toNat % 16

theorem getElem?_nibbles (bs : List UInt8) (place : Nat) :
    (nibbles bs)[place]? = nibble? bs place := by
  induction bs generalizing place with
  | nil => rfl
  | cons b bs ih =>
    match place with
    | 0 => rfl
    | 1 => rfl
    | place + 2 =>
      rw [nibbles_cons, List.getElem?_cons_succ, List.getElem?_cons_succ, ih, nibble?, nibble?,
        Nat.add_div_right place (by decide), Nat.add_mod_right, List.getElem?_cons_succ]

theorem length_digits (a : Address) : a.digits.length = 40 := by
  rw [digits, length_hexDigits, a.bytes.length_toList]

theorem length_checksumDigits (a : Address) : a.checksumDigits.length = 40 := by
  rw [(a.digits_checksumDigits).length_eq, length_nibbles, a.bytes.length_toList]

/-- A decimal digit has no case. -/
theorem recase_digitChar (d nibble : Nat) : recase (Nat.digitChar d) nibble =
    if 10 ≤ d ∧ 8 ≤ nibble then (Nat.digitChar d).toUpper else Nat.digitChar d := by
  have hdecimal : ∀ d < 10, (Nat.digitChar d).toUpper = Nat.digitChar d := by decide
  rw [recase]
  by_cases hletter : 10 ≤ d
  · simp only [hletter, true_and]
  · have hnone : ¬(10 ≤ d ∧ 8 ≤ nibble) := fun h => hletter h.1
    rw [if_neg hnone, hdecimal d (Nat.lt_of_not_le hletter), ite_self]

theorem exists_place {place : Nat} (a : Address) (hplace : place < 40) :
    ∃ d h, nibble? a.bytes.toList place = some d ∧ nibble? a.caseDigest.toList place = some h ∧
      a.digits[place]? = some (Nat.digitChar d) ∧
      a.checksumDigits[place]? =
        some (if 10 ≤ d ∧ 8 ≤ h then (Nat.digitChar d).toUpper else Nat.digitChar d) := by
  have hlength : place < (nibbles a.bytes.toList).length := by
    rw [length_nibbles, a.bytes.length_toList]
    exact hplace
  have hd := List.getElem?_eq_getElem hlength
  have hh := List.getElem?_eq_getElem (Nat.lt_of_lt_of_le hlength a.length_nibbles_caseDigest)
  have hdigit : a.digits[place]? = some (Nat.digitChar (nibbles a.bytes.toList)[place]) := by
    rw [digits, hexDigits_eq_row, row, List.getElem?_map, hd, Option.map_some]
  refine ⟨_, _, (getElem?_nibbles _ _).symm.trans hd, (getElem?_nibbles _ _).symm.trans hh, hdigit,
    ?_⟩
  rw [checksumDigits, List.getElem?_zipWith, hdigit, hh, ← recase_digitChar]

/-- An address is written as 40 digits behind a marker. Each is a lowercase digit of its bytes, or
its capital where it is a letter and the digest of all lowercase digits has eight or more at the
same place. The address is read back from its digits in whatever case, with or without a marker and
with white space around, so that two texts are read as the same address just when they are written
again in the same way. -/
theorem checksum_recased (a : Address) :
    (∃ digits : List Char, a.checksum = String.ofList ('0' :: 'x' :: digits) ∧
      a.digits.length = 40 ∧ digits.length = 40 ∧
      ∀ place < 40, ∃ d h, nibble? a.bytes.toList place = some d ∧
        nibble? (keccak256 (a.digits.map fun c => UInt8.ofNat c.toNat)).toList place = some h ∧
        a.digits[place]? = some (Nat.digitChar d) ∧
        digits[place]? =
          some (if 10 ≤ d ∧ 8 ≤ h then (Nat.digitChar d).toUpper else Nat.digitChar d)) ∧
    parse a.checksum = .ok a ∧
    (∀ recased marker before after, Recased a.digits recased → marker ∈ markers →
      Blank before → Blank after →
      parse (String.ofList (before ++ (marker ++ recased ++ after))) = .ok a) ∧
    ∀ text text' a', parse text = .ok a → parse text' = .ok a' →
      (parse text = parse text' ↔ a.checksum = a'.checksum) := by
  refine ⟨⟨a.checksumDigits, rfl, a.length_digits, a.length_checksumDigits,
    fun place hplace => a.exists_place hplace⟩, a.parse_checksum, ?_, ?_⟩
  · intro recased marker before after hrecased hmarker hbefore hafter
    exact parse_spelled hmarker (hrecased.digits (digits_hexDigits _)) hbefore hafter
  · intro text text' a' h h'
    rw [h, h', Except.ok.injEq]
    exact checksum_injective.eq_iff.symm

/-- The first of the vectors of EIP-55, and the same address in lowercase digits and in capitals. -/
theorem checksum_recased_vector :
    let vector := "0x5aAeb6053F3E94C9b9A09f33669435E7Ef1BeAed"
    ∃ a, a.checksum = vector ∧ parse vector = .ok a ∧
      parse "0x5aaeb6053f3e94c9b9a09f33669435e7ef1beaed" = .ok a ∧
      parse " 5AAEB6053F3E94C9B9A09F33669435E7EF1BEAED\n" = .ok a ∧
      parse "0x0000000000000000000000000000000000000000" = .ok zero ∧
      a.checksum ≠ zero.checksum := by
  let a : Address := ⟨⟨[0x5a, 0xae, 0xb6, 0x05, 0x3f, 0x3e, 0x94, 0xc9, 0xb9, 0xa0, 0x9f, 0x33,
    0x66, 0x94, 0x35, 0xe7, 0xef, 0x1b, 0xea, 0xed], rfl⟩⟩
  have hdigits : a.digits = "5aaeb6053f3e94c9b9a09f33669435e7ef1beaed".toList := by rfl
  have hlower : parse "0x5aaeb6053f3e94c9b9a09f33669435e7ef1beaed" = .ok a := by rfl
  have hzero : parse "0x0000000000000000000000000000000000000000" = .ok zero := by rfl
  have hvector : a.checksum = "0x5aAeb6053F3E94C9b9A09f33669435E7Ef1BeAed" := by decide +kernel
  have hcapitals : Recased a.digits "5AAEB6053F3E94C9B9A09F33669435E7EF1BEAED".toList := by
    rw [hdigits, Recased]
    decide
  have hblank : Blank [' '] ∧ Blank ['\n'] :=
    ⟨List.forall_mem_singleton.mpr rfl, List.forall_mem_singleton.mpr rfl⟩
  obtain ⟨-, hread, hrecased, hsame⟩ := checksum_recased a
  refine ⟨a, hvector, hvector ▸ hread, hlower, ?_, hzero, fun h => ?_⟩
  · exact hrecased _ [] [' '] ['\n'] hcapitals List.mem_cons_self hblank.1 hblank.2
  · have hsameRead := (hsame _ _ zero hlower hzero).mpr h
    rw [hlower, hzero] at hsameRead
    exact absurd (Except.ok.inj hsameRead) (by decide)

end ClaimTree.Address
