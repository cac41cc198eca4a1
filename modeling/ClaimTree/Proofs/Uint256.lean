import ClaimTree.Proofs.Uint256.Grammar

namespace ClaimTree.Uint256

open Text

variable {before after : List Char}

/-- The digits of a byte string behind the marker write the number that it denotes. -/
theorem parse_hexDigits (b : Bytes 32) (count : Nat) (hbefore : Blank before)
    (hafter : Blank after) :
    parse (String.ofList (before ++ ('0' :: 'x' :: (zeros count ++ hexDigits b.toList) ++ after))) =
      .ok (ofBytes b) := by
  have hne : Address.nibbles b.toList ≠ [] := by
    apply List.ne_nil_of_length_pos
    rw [length_nibbles, b.length_toList]
    decide
  have hdigits : Numeral 16 (row (Address.nibbles b.toList)) _ :=
    numeral_row hne fun d hd => nibbles_lt hd
  rw [positional_nibbles, ← hexDigits_eq_row] at hdigits
  exact parse_eq_ok_iff.mpr (denotes_spelled .lower hdigits count hbefore hafter)

theorem parse_decimalDigits (n : Uint256) (count : Nat) (hbefore : Blank before)
    (hafter : Blank after) :
    parse (String.ofList (before ++ (zeros count ++ Nat.toDigits 10 n.val ++ after))) = .ok n := by
  have hdigits : Numeral 10 (Nat.toDigits 10 n.val) n.val := numeral_toDigits (by decide) n.val
  exact parse_eq_ok_iff.mpr (denotes_spelled .decimal hdigits count hbefore hafter)

theorem parse_text (n : Uint256) : parse n.text = .ok n := by
  have hdenotes := denotes_append .lower (numeral_toDigits (by decide) n.val)
  exact parse_eq_ok_iff.mpr hdenotes

theorem parse_decimal (n : Uint256) : parse n.decimal = .ok n := by
  have hdenotes := denotes_append .decimal (numeral_toDigits (by decide) n.val)
  exact parse_eq_ok_iff.mpr hdenotes

end ClaimTree.Uint256
