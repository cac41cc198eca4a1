import ClaimTree.Proofs.Except
import ClaimTree.Proofs.Uint256

namespace ClaimTree.Uint256

open Text

variable {n : Uint256} {digits : List Char}

/-- The printed digits start with zero only for zero. -/
theorem head?_toDigits_eq_zero_iff {base : Nat} (hbase : 1 < base) :
    (Nat.toDigits base n.val).head? = some '0' ↔ n = zero := by
  constructor
  · intro h
    obtain ⟨s, hs⟩ := List.head?_eq_some_iff.mp h
    exact val_injective ((toDigits_head hbase hs).1.trans val_zero.symm)
  · rintro rfl
    rw [val_zero, Nat.toDigits_zero]
    rfl

/-- Digits without a superfluous zero are the printed ones. -/
theorem eq_toDigits_of_shortest {base : Nat} {marker : List Char} (hmarker : Marker base marker)
    (hpos : 1 < base) (hshort : Shortest base digits)
    (h : parse (String.ofList (marker ++ digits)) = .ok n) :
    digits = Nat.toDigits base n.val := by
  obtain ⟨number, hdigits⟩ := hshort.exists_numeral
  rw [(denotes_append hmarker hdigits).parse_eq] at h
  split at h
  · next hfits =>
    rw [← Except.ok.inj h, val_ofNat hfits]
    exact hdigits.eq_toDigits hpos hmarker.base_le hshort
  · cases h

theorem text_injective : Function.Injective text := injective_of_read_back parse_text

theorem decimal_injective : Function.Injective decimal := injective_of_read_back parse_decimal

/-- Both printed texts of an integer read back as it. They have lowercase digits, a zero in front
only for zero, and no other text of this form is read as the same integer. So two texts are read as
the same integer just when they are printed again in the same way, in either base. -/
theorem texts_canonical :
    (∀ n : Uint256, parse n.text = .ok n ∧ parse n.decimal = .ok n ∧
      (∃ digits, n.text = String.ofList ('0' :: 'x' :: digits) ∧ Shortest 16 digits ∧
        (digits.head? = some '0' ↔ n = zero)) ∧
      (∃ digits, n.decimal = String.ofList digits ∧ Shortest 10 digits ∧
        (digits.head? = some '0' ↔ n = zero)) ∧
      (∀ digits, Shortest 16 digits → parse (String.ofList ('0' :: 'x' :: digits)) = .ok n →
        String.ofList ('0' :: 'x' :: digits) = n.text) ∧
      ∀ digits, Shortest 10 digits → parse (String.ofList digits) = .ok n →
        String.ofList digits = n.decimal) ∧
    ∀ a b m n, parse a = .ok m → parse b = .ok n →
      (parse a = parse b ↔ m.text = n.text) ∧ (parse a = parse b ↔ m.decimal = n.decimal) := by
  refine ⟨fun n => ⟨n.parse_text, n.parse_decimal, ⟨_, rfl, shortest_toDigits (by decide) _,
    head?_toDigits_eq_zero_iff (by decide)⟩, ⟨_, rfl, shortest_toDigits (by decide) _,
    head?_toDigits_eq_zero_iff (by decide)⟩, fun digits hshort h => ?_, fun digits hshort h => ?_⟩,
    fun a b m n ha hb => ?_⟩
  · rw [eq_toDigits_of_shortest .lower (by decide) hshort h, text]
  · rw [eq_toDigits_of_shortest .decimal (by decide) hshort h, decimal]
  · rw [ha, hb, Except.ok.injEq]
    exact ⟨text_injective.eq_iff.symm, decimal_injective.eq_iff.symm⟩

theorem texts_canonical_two_spellings :
    ∃ n, parse " 0X00fF" = .ok n ∧ parse "255" = .ok n ∧ parse "0xff" = .ok n ∧
      n.text = "0xff" ∧ n.decimal = "255" ∧ parse "0x0" = .ok zero ∧ n.text ≠ zero.text := by
  have hspelled : parse " 0X00fF" = .ok (ofUInt64 255) := by rfl
  have hdecimal : parse "255" = .ok (ofUInt64 255) := by rfl
  have hhexadecimal : parse "0xff" = .ok (ofUInt64 255) := by rfl
  have hzero : parse "0x0" = .ok zero := by rfl
  have hff : Shortest 16 ['f', 'f'] := shortest_toDigits (by decide) 255
  have htens : Shortest 10 ['2', '5', '5'] := shortest_toDigits (by decide) 255
  obtain ⟨hprinted, hsame⟩ := texts_canonical
  obtain ⟨-, -, -, -, htext, hdigits⟩ := hprinted (ofUInt64 255)
  refine ⟨_, hspelled, hdecimal, hhexadecimal, (htext _ hff hhexadecimal).symm,
    (hdigits _ htens hdecimal).symm, hzero, fun h => ?_⟩
  have hread := (hsame _ _ _ _ hspelled hzero).1.mpr h
  rw [hspelled, hzero] at hread
  cases hread

end ClaimTree.Uint256
