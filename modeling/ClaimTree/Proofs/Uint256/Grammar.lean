import ClaimTree.Proofs.Text.Hex
import ClaimTree.Proofs.Uint256.Number

namespace ClaimTree

theorem Bytes.getElem?_digits {n place : Nat} (hplace : place < n) (v : Nat) :
    (digits n v)[place]? = some (UInt8.ofNat (v / 256 ^ (n - 1 - place))) := by
  induction n generalizing place with
  | zero => cases hplace
  | succ n ih =>
    cases place with
    | zero =>
      rw [digits, List.getElem?_cons_zero, Nat.shiftRight_eq_div_pow, pow_mul]
      rfl
    | succ place =>
      have hexponent : n + 1 - 1 - (place + 1) = n - 1 - place := by omega
      rw [digits, List.getElem?_cons_succ, ih (Nat.lt_of_succ_lt_succ hplace), hexponent]

namespace Uint256

open Text

/-- What stands in front of the digits of a base. -/
inductive Marker : Nat → List Char → Prop
  | decimal : Marker 10 []
  | lower : Marker 16 ['0', 'x']
  | upper : Marker 16 ['0', 'X']

/-- The integer texts, each with the number that it writes. -/
def Denotes (text : String) (number : Nat) : Prop :=
  ∃ base marker digits, Marker base marker ∧ Numeral base digits number ∧
    Trimmed text.toList (marker ++ digits)

/-- The number that an integer text denotes, of any size, read off its characters. -/
def denoted? (s : List Char) : Option Nat := number? (unmarked s).2 (unmarked s).1

variable {text : String} {number base : Nat} {marker digits : List Char}

theorem Marker.base_le (h : Marker base marker) : base ≤ 16 := by
  cases h <;> decide

theorem Marker.base_pos (h : Marker base marker) : 0 < base := by
  cases h <;> decide

theorem Marker.mem_markers (h : Marker base marker) : marker ∈ markers := by
  cases h <;> decide

theorem exists_unmarked (s : List Char) :
    ∃ marker, Marker (unmarked s).2 marker ∧ s = marker ++ (unmarked s).1 := by
  unfold unmarked
  split
  · exact ⟨_, .lower, rfl⟩
  · exact ⟨_, .upper, rfl⟩
  · exact ⟨_, .decimal, rfl⟩

theorem unmarked_append (hmarker : Marker base marker) (hdigits : Numeral base digits number) :
    unmarked (marker ++ digits) = (digits, base) := by
  cases hmarker with
  | decimal =>
    -- The second of several decimal digits is no letter.
    rw [List.nil_append]
    unfold unmarked
    split
    · exact absurd (List.mem_cons_of_mem _ List.mem_cons_self) (hdigits.not_mem (by decide) rfl)
    · exact absurd (List.mem_cons_of_mem _ List.mem_cons_self) (hdigits.not_mem (by decide) rfl)
    · rfl
  | lower => rfl
  | upper => rfl

theorem denoted?_eq_some_iff {core : List Char} : denoted? core = some number ↔
    ∃ base marker digits, Marker base marker ∧ Numeral base digits number ∧
      core = marker ++ digits := by
  constructor
  · intro h
    obtain ⟨marker, hmarker, hcore⟩ := exists_unmarked core
    exact ⟨_, marker, _, hmarker, (number?_eq_some_iff hmarker.base_le).mp h, hcore⟩
  · rintro ⟨base, marker, digits, hmarker, hdigits, rfl⟩
    rw [denoted?, unmarked_append hmarker hdigits]
    exact (number?_eq_some_iff hmarker.base_le).mpr hdigits

theorem denotes_iff : Denotes text number ↔ denoted? (trim text.toList) = some number := by
  rw [denoted?_eq_some_iff]
  simp only [trim_eq_iff, Denotes]

theorem Denotes.parse_eq (h : Denotes text number) :
    parse text = if number < size then .ok (ofNat number) else .error (.overflow text) := by
  obtain ⟨base, marker, digits, hmarker, hdigits, htrimmed⟩ := h
  have hform : isNumeral base digits = true := (isNumeral_iff hmarker.base_le).mpr ⟨_, hdigits⟩
  rw [parse, htrimmed.trim_eq, unmarked_append hmarker hdigits]
  dsimp only
  rw [hform, hdigits.looseNumber?_eq hmarker.base_le]
  exact fromNat_eq number text

theorem parse_of_not_denotes (h : ¬∃ number, Denotes text number) :
    parse text = .error (.integer text) := by
  obtain ⟨marker, hmarker, hcore⟩ := exists_unmarked (trim text.toList)
  rw [parse]
  generalize unmarked (trim text.toList) = split at hmarker hcore
  obtain ⟨digits, base⟩ := split
  have hform : ¬isNumeral base digits = true := by
    rw [isNumeral_iff hmarker.base_le]
    rintro ⟨number, hdigits⟩
    exact h ⟨number, base, marker, digits, hmarker, hdigits, trim_eq_iff.mp hcore⟩
  exact if_pos (by simpa using hform)

theorem parse_eq_ok_iff {n : Uint256} : parse text = .ok n ↔ Denotes text n.val := by
  constructor
  · intro h
    by_cases hdenotes : ∃ number, Denotes text number
    · obtain ⟨number, hnumber⟩ := hdenotes
      rw [hnumber.parse_eq] at h
      split at h
      · next hfits =>
        rw [← Except.ok.inj h, val_ofNat hfits]
        exact hnumber
      · cases h
    · rw [parse_of_not_denotes hdenotes] at h
      cases h
  · intro h
    rw [h.parse_eq, if_pos n.val_lt, ofNat_val]

/-- Every spelling of a number: white space around it and zeros behind the marker. -/
theorem denotes_spelled {before after : List Char} (hmarker : Marker base marker)
    (hdigits : Numeral base digits number) (count : Nat) (hbefore : Blank before)
    (hafter : Blank after) :
    Denotes (String.ofList (before ++ (marker ++ (zeros count ++ digits) ++ after))) number := by
  have hzeros := hdigits.zeros_append hmarker.base_pos count
  have hsolid := (solid_marker hmarker.mem_markers).append (hzeros.solid hmarker.base_le)
  refine ⟨base, marker, _, hmarker, hzeros, ?_⟩
  rw [String.toList_ofList]
  exact hsolid.trimmed hbefore hafter

theorem denotes_append (hmarker : Marker base marker) (hdigits : Numeral base digits number) :
    Denotes (String.ofList (marker ++ digits)) number := by
  have hdenotes := denotes_spelled hmarker hdigits 0 blank_nil blank_nil
  rw [List.nil_append, List.append_nil] at hdenotes
  exact hdenotes

/-- A text is read as an integer just when, between white space, it writes a number below 2^256 in
decimal digits or in hexadecimal ones behind a marker, with any number of zeros in front. The
integer has the big-endian bytes of this number. Where the number is too large the text is refused
for that, and where it writes none for its form, in both cases as it was given. Digits that have
been judged are always read. A number has at most 256 binary digits just when its fewest bytes are
at most 32. So once the binary digits are counted, neither the room in front of the bytes nor the
copy of the bytes is a reason to refuse it. -/
theorem parse_integer_text (text : String) :
    ((∃ n, parse text = .ok n) ↔ ∃ number < 2 ^ 256, Denotes text number) ∧
    (∀ number, Denotes text number →
      (number < 2 ^ 256 → ∃ n, parse text = .ok n ∧ n.toBytes.toList.length = 32 ∧
        ∀ place < 32, n.toBytes.toList[place]? =
          some (UInt8.ofNat (number / 256 ^ (31 - place)))) ∧
      (2 ^ 256 ≤ number → parse text = .error (.overflow text))) ∧
    ((¬∃ number, Denotes text number) → parse text = .error (.integer text)) ∧
    (∀ base marker digits number count, Marker base marker → Numeral base digits number →
      Trimmed text.toList (marker ++ (zeros count ++ digits)) → Denotes text number) ∧
    (∀ n : UInt64, Denotes text n.toNat → parse text = .ok (ofUInt64 n)) ∧
    (∀ base marker digits, Marker base marker → isNumeral base digits = true →
      ∃ number, looseNumber? base digits = some number ∧ Numeral base digits number) ∧
    (∀ v, (bits v ≤ 256 ↔ v < 2 ^ 256) ∧ ((Bytes.minimal v).length ≤ 32 ↔ v < 2 ^ 256) ∧
      Bytes.value (Bytes.minimal v) = v) ∧
    (∀ v, bits v ≤ 256 → ∃ (hlength : (Bytes.minimal v).length ≤ 32) (bytes : Bytes 32),
      (Bytes.zero 32).copyTail? (32 - (Bytes.minimal v).length) (Bytes.minimal v)
        (fun _ => Nat.sub_add_cancel hlength) = some bytes ∧ bytes.toNat = v ∧
      fromNat v text = .ok ⟨bytes⟩) ∧
    ∀ n : UInt64, (ofUInt64 n).val = n.toNat ∧
      ∃ hlength, (Bytes.zero 32).copyTail? (32 - 8) (Bytes.ofNat 8 n.toNat).toList hlength =
        some (ofUInt64 n).bytes := by
  have hread {number : Nat} (h : Denotes text number) (hfits : number < size) :
      parse text = .ok (ofNat number) := by rw [h.parse_eq, if_pos hfits]
  refine ⟨⟨?_, ?_⟩, fun number h => ⟨fun hfits => ?_, fun hlarge => ?_⟩, parse_of_not_denotes, ?_,
    fun n h => ?_, fun base marker digits hmarker hform => ?_,
    fun v => ⟨bits_le_iff, ?_, Bytes.value_minimal v⟩, fun v hbits => ?_,
    fun n => ⟨val_ofUInt64 n, exists_copyTail?_ofUInt64 n⟩⟩
  · rintro ⟨n, hn⟩
    exact ⟨n.val, size_eq ▸ n.val_lt, parse_eq_ok_iff.mp hn⟩
  · rintro ⟨number, hfits, h⟩
    exact ⟨_, hread h (size_eq ▸ hfits)⟩
  · exact ⟨_, hread h (size_eq ▸ hfits), Bytes.length_toList _,
      fun place hplace => Bytes.getElem?_digits hplace number⟩
  · rw [h.parse_eq, if_neg]
    rw [size_eq]
    exact Nat.not_lt.mpr hlarge
  · intro base marker digits number count hmarker hdigits htrimmed
    exact ⟨base, marker, _, hmarker, hdigits.zeros_append hmarker.base_pos count, htrimmed⟩
  · rw [hread h (Nat.lt_trans n.toNat_lt (by decide)), ofUInt64_eq]
  · obtain ⟨number, hdigits⟩ := (isNumeral_iff hmarker.base_le).mp hform
    exact ⟨number, hdigits.looseNumber?_eq hmarker.base_le, hdigits⟩
  · rw [length_minimal_le_iff_lt, size_eq]
  · have hfits : v < size := bits_le_iff_lt.mp hbits
    obtain ⟨hlength, hcopy⟩ := exists_copyTail?_minimal hfits
    exact ⟨hlength, _, hcopy, val_ofNat hfits, by rw [fromNat_eq, if_pos hfits]⟩

/-- Capitals behind a capital marker, zeros and blanks; the first number that is too large; and a
separator and a sign, which no integer text has, although the reader of the digits knows them. -/
theorem parse_integer_text_spellings :
    let large := "115792089237316195423570985008687907853269984665640564039457584007913129639936"
    Denotes "\u2003 0X00fF\n" 255 ∧
      (∃ n, parse "\u2003 0X00fF\n" = .ok n ∧ n.toBytes.toList[31]? = some 255) ∧
      parse "\u2003 0X00fF\n" = .ok (ofUInt64 255) ∧ Denotes large (2 ^ 256) ∧
      parse large = .error (.overflow large) ∧
      looseNumber? 10 "1_000".toList = some 1000 ∧ (¬∃ number, Denotes "1_000" number) ∧
      parse "1_000" = .error (.integer "1_000") ∧
      looseNumber? 16 "+ff".toList = some 255 ∧ (¬∃ number, Denotes "0x+ff" number) ∧
      parse "0x+ff" = .error (.integer "0x+ff") := by
  have hspelled : Denotes "\u2003 0X00fF\n" 255 := denotes_iff.mpr (by rfl)
  have hlarge : Denotes
      "115792089237316195423570985008687907853269984665640564039457584007913129639936" (2 ^ 256) :=
    denotes_iff.mpr (by decide +kernel)
  have hseparated : ¬∃ number, Denotes "1_000" number := by
    rintro ⟨number, h⟩
    rw [denotes_iff] at h
    cases h
  have hsigned : ¬∃ number, Denotes "0x+ff" number := by
    rintro ⟨number, h⟩
    rw [denotes_iff] at h
    cases h
  obtain ⟨-, hnumber, -, -, hsmall, -⟩ := parse_integer_text "\u2003 0X00fF\n"
  obtain ⟨n, hn, -, hbytes⟩ := (hnumber 255 hspelled).1 (by decide)
  exact ⟨hspelled, ⟨n, hn, hbytes 31 (by decide)⟩, hsmall 255 hspelled, hlarge,
    ((parse_integer_text _).2.1 _ hlarge).2 (Nat.le_refl _), by decide, hseparated,
    (parse_integer_text _).2.2.1 hseparated, by decide, hsigned,
    (parse_integer_text _).2.2.1 hsigned⟩

end Uint256

end ClaimTree
