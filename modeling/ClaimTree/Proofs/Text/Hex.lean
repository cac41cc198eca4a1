import ClaimTree.Address
import ClaimTree.Proofs.Bytes
import ClaimTree.Proofs.Text.Numeral
import Mathlib.Data.List.Forall2

namespace ClaimTree.Text

open Address (nibbles)

theorem nibbles_cons (b : UInt8) (bs : List UInt8) :
    nibbles (b :: bs) = b.toNat / 16 :: b.toNat % 16 :: nibbles bs := rfl

theorem nibbles_ofNat_cons {high low : Nat} (hhigh : high < 16) (hlow : low < 16)
    (bs : List UInt8) :
    nibbles (UInt8.ofNat (high * 16 + low) :: bs) = high :: low :: nibbles bs := by
  have hbyte : (UInt8.ofNat (high * 16 + low)).toNat = high * 16 + low := by
    rw [UInt8.toNat_ofNat', Nat.mod_eq_of_lt (by omega)]
  have hdiv : (high * 16 + low) / 16 = high := by omega
  have hmod : (high * 16 + low) % 16 = low := by omega
  rw [nibbles_cons, hbyte, hdiv, hmod]

theorem nibbles_lt {bs : List UInt8} {d : Nat} (hd : d ∈ nibbles bs) : d < 16 := by
  obtain ⟨b, -, hb⟩ := List.mem_flatMap.mp hd
  have hlt : b.toNat < 256 := b.toNat_lt
  simp only [List.mem_cons, List.not_mem_nil, or_false] at hb
  rcases hb with rfl | rfl <;> omega

theorem length_nibbles (bs : List UInt8) : (nibbles bs).length = 2 * bs.length := by
  induction bs with
  | nil => rfl
  | cons b bs ih =>
    rw [nibbles_cons, List.length_cons, List.length_cons, ih, List.length_cons]
    omega

theorem hexDigits_eq_row (bs : List UInt8) : hexDigits bs = row (nibbles bs) := by
  rw [hexDigits, row, nibbles, List.map_flatMap]
  rfl

theorem length_hexDigits (bs : List UInt8) : (hexDigits bs).length = 2 * bs.length := by
  rw [hexDigits_eq_row, row, List.length_map, length_nibbles]

theorem solid_hexDigits (bs : List UInt8) : Solid (hexDigits bs) := by
  rw [hexDigits_eq_row]
  exact solid_row fun d hd => nibbles_lt hd

theorem positional_nibbles (bs : List UInt8) : positional 16 (nibbles bs) = Bytes.value bs := by
  suffices h : ∀ v, (nibbles bs).foldl (fun v d => v * 16 + d) v =
      bs.foldl (fun v b => v * 256 + b.toNat) v from h 0
  induction bs with
  | nil => exact fun v => rfl
  | cons b bs ih =>
    intro v
    have hbyte : (v * 16 + b.toNat / 16) * 16 + b.toNat % 16 = v * 256 + b.toNat := by omega
    calc (nibbles (b :: bs)).foldl (fun v d => v * 16 + d) v
        = (nibbles bs).foldl (fun v d => v * 16 + d)
            ((v * 16 + b.toNat / 16) * 16 + b.toNat % 16) := rfl
      _ = bs.foldl (fun v b => v * 256 + b.toNat) (v * 256 + b.toNat) := by rw [hbyte, ih]

/-- A row of digits is read as bytes just when it writes their halves, in whatever case. -/
theorem hexBytes?_eq_some_iff {s : List Char} {bs : List UInt8} :
    hexBytes? s = some bs ↔ List.Forall₂ (IsDigit 16) s (nibbles bs) := by
  constructor
  · intro h
    fun_induction hexBytes? s generalizing bs with
    | case1 =>
      cases h
      exact .nil
    | case2 c => cases h
    | case3 high low rest ih =>
      obtain ⟨v, hv, h⟩ := Option.bind_eq_some_iff.mp h
      obtain ⟨w, hw, h⟩ := Option.bind_eq_some_iff.mp h
      obtain ⟨cs, hcs, h⟩ := Option.bind_eq_some_iff.mp h
      rw [digit?_eq_some_iff] at hv hw
      rw [← Option.some.inj h, nibbles_ofNat_cons hv.1 hw.1]
      exact .cons hv (.cons hw (ih hcs))
  · intro h
    induction bs generalizing s with
    | nil =>
      cases h
      rfl
    | cons b bs ih =>
      obtain _ | ⟨hhigh, _ | ⟨hlow, hrest⟩⟩ := h
      rw [hexBytes?, digit?_eq_some_iff.mpr hhigh, digit?_eq_some_iff.mpr hlow, ih hrest]
      exact congrArg (fun b => some (b :: bs))
        (by rw [Nat.div_add_mod', UInt8.ofNat_toNat])

/-- The spellings of the marker in front of hexadecimal digits, of which the first leaves it out. -/
def markers : List (List Char) := [[], ['0', 'x'], ['0', 'X']]

section Markers

variable {marker s : List Char} {ds : List Nat}

theorem exists_digit (hs : List.Forall₂ (IsDigit 16) s ds) {c : Char} (hc : c ∈ s) :
    ∃ d, IsDigit 16 c d := by
  induction hs with
  | nil => cases hc
  | cons hd _ ih =>
    rcases List.mem_cons.mp hc with rfl | hrest
    · exact ⟨_, hd⟩
    · exact ih hrest

theorem not_mem_of_digits (hs : List.Forall₂ (IsDigit 16) s ds) {c : Char}
    (hc : digit? c = none) : c ∉ s := by
  intro hmem
  obtain ⟨d, hd⟩ := exists_digit hs hmem
  exact not_isDigit hc (Nat.le_refl _) hd

theorem dropMarker_append (hmarker : marker ∈ markers) (hs : List.Forall₂ (IsDigit 16) s ds) :
    dropMarker (marker ++ s) = s := by
  simp only [markers, List.mem_cons, List.not_mem_nil, or_false] at hmarker
  rcases hmarker with rfl | rfl | rfl
  · -- A marker in front of the digits would have a letter in it that is no digit.
    rw [List.nil_append]
    unfold dropMarker
    split
    · exact absurd (List.mem_cons_of_mem _ List.mem_cons_self) (not_mem_of_digits hs rfl)
    · exact absurd (List.mem_cons_of_mem _ List.mem_cons_self) (not_mem_of_digits hs rfl)
    · rfl
  · rfl
  · rfl

theorem solid_of_digits (hs : List.Forall₂ (IsDigit 16) s ds) : Solid s := by
  intro c hc
  obtain ⟨d, hd⟩ := exists_digit hs hc
  exact hd.isBlank

theorem solid_marker (hmarker : marker ∈ markers) : Solid marker := by
  simp only [markers, List.mem_cons, List.not_mem_nil, or_false] at hmarker
  rcases hmarker with rfl | rfl | rfl
  · exact nofun
  · exact .cons rfl (.cons rfl nofun)
  · exact .cons rfl (.cons rfl nofun)

/-- Bytes are read from their digits behind any spelling of the marker, with white space around. -/
theorem fixedHex?_spelled {n : Nat} {b : Bytes n} {before after : List Char}
    (hmarker : marker ∈ markers) (hs : List.Forall₂ (IsDigit 16) s (nibbles b.toList))
    (hbefore : Blank before) (hafter : Blank after) :
    fixedHex? n (String.ofList (before ++ (marker ++ s ++ after))) = some b := by
  have hsolid : Solid (marker ++ s) := (solid_marker hmarker).append (solid_of_digits hs)
  rw [fixedHex?, String.toList_ofList, (hsolid.trimmed hbefore hafter).trim_eq,
    dropMarker_append hmarker hs, hexBytes?_eq_some_iff.mpr hs, Option.bind_some, Bytes.ofList?,
    dif_pos b.length_toList]

end Markers

theorem digits_hexDigits (bs : List UInt8) :
    List.Forall₂ (IsDigit 16) (hexDigits bs) (nibbles bs) := by
  rw [hexDigits_eq_row, row, List.forall₂_map_left_iff, List.forall₂_same]
  exact fun d hd => isDigit_digitChar (nibbles_lt hd)

theorem fixedHex?_hexText {n : Nat} (b : Bytes n) : fixedHex? n (hexText b.toList) = some b := by
  have hmarker : ['0', 'x'] ∈ markers := by decide
  have hread := fixedHex?_spelled hmarker (digits_hexDigits b.toList) blank_nil blank_nil
  rwa [List.nil_append, List.append_nil] at hread

end ClaimTree.Text
