import ClaimTree.Proofs.Except
import ClaimTree.Proofs.Json.Layout
import ClaimTree.Proofs.Text.Digit

namespace ClaimTree.Json

open Text (row)

theorem isDecimal_digitChar {d : Nat} (hd : d < 10) : Text.isDecimal (Nat.digitChar d) = true := by
  have hall : ∀ d < 10, Text.isDecimal (Nat.digitChar d) = true := by decide
  exact hall d hd

theorem digits_row {ds : List Nat} (hds : ∀ d ∈ ds, d < 10) :
    ∀ c ∈ row ds, Text.isDecimal c = true := by
  intro c hc
  obtain ⟨d, hd, rfl⟩ := List.mem_map.mp hc
  exact isDecimal_digitChar (hds d hd)

/-- The value of a character is that of the digit which it writes. -/
theorem decimalValue_row {ds : List Nat} (hds : ∀ d ∈ ds, d < 10) :
    decimalValue (row ds) = Text.positional 10 ds := by
  have hvalues : (row ds).map (fun c => c.toNat - '0'.toNat) = ds := by
    rw [row, List.map_map]
    refine (List.map_congr_left fun d hd => ?_).trans (List.map_id ds)
    exact Nat.toNat_digitChar_sub_48_of_lt_ten (hds d hd)
  rw [decimalValue, hvalues]

/-- No boundary goes on with what could belong to a number. -/
theorem Boundary.not_numeral {rest : List Char} (hrest : Boundary rest) {c : Char} {s : List Char}
    (h : rest = c :: s) : Text.isDecimal c = false ∧ c ≠ '.' ∧ c ≠ 'e' ∧ c ≠ 'E' := by
  have hc := hrest c (h ▸ rfl)
  simp only [isSpace, Bool.or_eq_true, beq_iff_eq] at hc
  rcases hc with (((rfl | rfl) | rfl) | rfl) | rfl | rfl | rfl <;> decide

/-- The text goes on with something else than a digit, or not at all. -/
def EndsDigits (rest : List Char) : Prop := ∀ c, rest.head? = some c → Text.isDecimal c = false

theorem Boundary.endsDigits {rest : List Char} (hrest : Boundary rest) : EndsDigits rest := by
  intro c hc
  obtain ⟨s, rfl⟩ := List.head?_eq_some_iff.mp hc
  exact (hrest.not_numeral rfl).1

theorem readDigits_append {ds rest : List Char} (hne : ds ≠ [])
    (hds : ∀ c ∈ ds, Text.isDecimal c = true) (hrest : EndsDigits rest) :
    readDigits (ds ++ rest) = .ok (ds, rest) := by
  have hnone : ∀ c, rest.head? = some c → ¬Text.isDecimal c = true := by
    intro c hc
    rw [hrest c hc]
    exact Bool.false_ne_true
  obtain ⟨first, others, rfl⟩ := List.exists_cons_of_ne_nil hne
  have htake : (first :: others ++ rest).takeWhile Text.isDecimal = first :: others := by
    rw [List.takeWhile_append_of_pos hds]
    cases rest with
    | nil => simp
    | cons c s => rw [List.takeWhile_cons, if_neg (hnone c rfl), List.append_nil]
  have hdrop : (first :: others ++ rest).dropWhile Text.isDecimal = rest := by
    rw [List.dropWhile_append_of_pos hds]
    cases rest with
    | nil => rfl
    | cons c s => rw [List.dropWhile_cons, if_neg (hnone c rfl)]
  unfold readDigits
  rw [htake]
  simp only [hdrop]

theorem readFraction_boundary {rest : List Char} (hrest : Boundary rest) :
    readFraction rest = .ok (none, rest) := by
  unfold readFraction
  split
  · exact absurd rfl (hrest.not_numeral rfl).2.1
  · rfl

theorem readExponent_boundary {rest : List Char} (hrest : Boundary rest) :
    readExponent rest = .ok (none, rest) := by
  cases rest with
  | nil => rfl
  | cons c s =>
    obtain ⟨-, -, he, hE⟩ := hrest.not_numeral rfl
    rw [readExponent, if_neg (by simp [he, hE])]

theorem readWhole_append {ds rest : List Char} (hne : ds ≠ [])
    (hds : ∀ c ∈ ds, Text.isDecimal c = true) (hzero : ds.head? = some '0' → ds = ['0'])
    (hrest : EndsDigits rest) : readWhole (ds ++ rest) = .ok (ds, rest) := by
  refine bind_eq_ok_iff.mpr ⟨_, readDigits_append hne hds hrest, ?_⟩
  split
  · next hread =>
    obtain rfl := (Prod.mk.inj hread).1
    cases hzero rfl
  · rfl

theorem readWhole_toDigits (n : Nat) {rest : List Char} (hrest : Boundary rest) :
    readWhole (Nat.toDigits 10 n ++ rest) = .ok (Nat.toDigits 10 n, rest) := by
  have hdigits : ∀ c ∈ Nat.toDigits 10 n, Text.isDecimal c = true := by
    obtain ⟨ds, -, hds, -, hrow⟩ := Text.exists_row_eq_toDigits 10 (by decide) n
    rw [hrow]
    exact digits_row hds
  refine readWhole_append Nat.toDigits_ne_nil hdigits (fun hzero => ?_) hrest.endsDigits
  obtain ⟨s, hs⟩ := List.head?_eq_some_iff.mp hzero
  rw [hs, (Text.toDigits_head (by decide) hs).2]

/-- Without a sign, the parts of a number are read one after the other. -/
theorem readNumeral_unsigned {s : List Char} (hs : ∀ t, s ≠ '-' :: t) : readNumeral s = (do
    let (whole, s) ← readWhole s
    let (fraction, s) ← readFraction s
    let (exponent, s) ← readExponent s
    return ({ negative := false, whole, fraction, exponent }, s)) := by
  unfold readNumeral
  split
  next negative t ht =>
  have hread : (negative, t) = (false, s) := by
    rw [← ht]
    split
    · exact absurd rfl (hs _)
    · rfl
  obtain ⟨rfl, rfl⟩ := Prod.mk.inj hread
  rfl

theorem readNumeral_toDigits (n : Nat) {rest : List Char} (hrest : Boundary rest) :
    readNumeral (Nat.toDigits 10 n ++ rest) =
      .ok (⟨false, Nat.toDigits 10 n, none, none⟩, rest) := by
  have hsign : ∀ s, Nat.toDigits 10 n ++ rest ≠ '-' :: s := by
    intro s hs
    obtain ⟨ds, hne, hds, -, hrow⟩ := Text.exists_row_eq_toDigits 10 (by decide) n
    obtain ⟨d, others, rfl⟩ := List.exists_cons_of_ne_nil hne
    rw [hrow] at hs
    have hdecimal := isDecimal_digitChar (hds d List.mem_cons_self)
    rw [(List.cons.inj hs).1] at hdecimal
    cases hdecimal
  rw [readNumeral_unsigned hsign, readWhole_toDigits n hrest]
  change (readFraction rest >>= _) = _
  rw [readFraction_boundary hrest]
  change (readExponent rest >>= _) = _
  rw [readExponent_boundary hrest]
  rfl

theorem count_toDigits (n : UInt64) :
    Numeral.count ⟨false, Nat.toDigits 10 n.toNat, none, none⟩ = .ok n := by
  obtain ⟨ds, -, hds, hvalue, hrow⟩ := Text.exists_row_eq_toDigits 10 (by decide) n.toNat
  have hdecimal : decimalValue (Nat.toDigits 10 n.toNat) = n.toNat := by
    rw [hrow, decimalValue_row hds, hvalue]
  have hfits : n.toNat < UInt64.size := n.toNat_lt
  simp [Numeral.count, Numeral.isWhole, hdecimal, hfits]

end ClaimTree.Json
