import ClaimTree.Proofs.Text.FixedWidth

namespace ClaimTree

/-- Numbers of two digits are compared by the upper digit first. -/
theorem compare_mul_add {base a b a' b' : Nat} (hb : b < base) (hb' : b' < base) :
    compare (a * base + b) (a' * base + b') = (compare a a').then (compare b b') := by
  rcases Nat.lt_trichotomy a a' with h | rfl | h
  · have hle : (a + 1) * base ≤ a' * base := Nat.mul_le_mul_right base h
    rw [Nat.add_mul, Nat.one_mul] at hle
    rw [Nat.compare_eq_lt.mpr h, Nat.compare_eq_lt.mpr (by omega)]
    rfl
  · rw [Nat.compare_eq_eq.mpr rfl, Ordering.eq_then]
    simp only [Nat.compare_eq_ite_lt, Nat.add_lt_add_iff_left]
  · have hle : (a' + 1) * base ≤ a * base := Nat.mul_le_mul_right base h
    rw [Nat.add_mul, Nat.one_mul] at hle
    rw [Nat.compare_eq_gt.mpr h, Nat.compare_eq_gt.mpr (by omega)]
    rfl

theorem compare_byte (a b : UInt8) : compare a b = compare a.toNat b.toNat := by
  change compareOfLessAndEq a b = compareOfLessAndEq a.toNat b.toNat
  simp only [compareOfLessAndEq, UInt8.lt_iff_toNat_lt, UInt8.toNat_inj]

namespace Bytes

theorem compare_value {as bs : List UInt8} (hlength : as.length = bs.length) :
    compare as bs = compare (value as) (value bs) := by
  induction as generalizing bs with
  | nil =>
    rw [List.eq_nil_of_length_eq_zero hlength.symm]
    rfl
  | cons a as ih =>
    cases bs with
    | nil => cases hlength
    | cons b bs =>
      have hrest : as.length = bs.length := Nat.succ.inj hlength
      have hlt : value as < count bs.length := hrest ▸ value_lt as
      rw [List.compare_cons_cons, value_cons, value_cons, hrest,
        compare_mul_add hlt (value_lt bs), compare_byte, ih hrest]

theorem compare_toNat {n : Nat} (a b : Bytes n) : compare a b = compare a.toNat b.toNat :=
  compare_value (a.length_toList.trans b.length_toList.symm)

end Bytes

namespace Text

open Address (nibbles)

/-- A byte is compared by its halves, the high one first. -/
theorem compare_nibbles (as bs : List UInt8) :
    compare (nibbles as) (nibbles bs) = compare as bs := by
  induction as generalizing bs with
  | nil => cases bs <;> rfl
  | cons a as ih =>
    cases bs with
    | nil => rfl
    | cons b bs =>
      have hbyte : compare a.toNat b.toNat =
          (compare (a.toNat / 16) (b.toNat / 16)).then (compare (a.toNat % 16) (b.toNat % 16)) := by
        rw [← compare_mul_add (Nat.mod_lt a.toNat (y := 16) (by decide))
          (Nat.mod_lt b.toNat (by decide)), Nat.div_add_mod', Nat.div_add_mod']
      rw [nibbles_cons, nibbles_cons, List.compare_cons_cons, List.compare_cons_cons,
        List.compare_cons_cons, ih, compare_byte, hbyte, Ordering.then_assoc]

/-- The characters of the lowercase digits stand in the order of their values. -/
theorem compare_row {ds es : List Nat} (hds : ∀ d ∈ ds, d < 16) (hes : ∀ e ∈ es, e < 16) :
    compare (row ds) (row es) = compare ds es := by
  have hdigit : ∀ d < 16, ∀ e < 16, compare (Nat.digitChar d) (Nat.digitChar e) = compare d e := by
    decide
  induction ds generalizing es with
  | nil => cases es <;> rfl
  | cons d ds ih =>
    cases es with
    | nil => rfl
    | cons e es =>
      obtain ⟨hd, hds⟩ := List.forall_mem_cons.mp hds
      obtain ⟨he, hes⟩ := List.forall_mem_cons.mp hes
      rw [row, row, List.map_cons, List.map_cons, List.compare_cons_cons, List.compare_cons_cons,
        hdigit d hd e he]
      exact congrArg _ (ih hds hes)

theorem compare_hexDigits (as bs : List UInt8) :
    compare (hexDigits as) (hexDigits bs) = compare as bs := by
  rw [hexDigits_eq_row, hexDigits_eq_row, compare_row (fun _ => nibbles_lt) (fun _ => nibbles_lt),
    compare_nibbles]

theorem compare_chars_eq_lt_iff (s t : List Char) : compare s t = .lt ↔ s < t := by
  induction s generalizing t with
  | nil =>
    cases t with
    | nil => exact iff_of_false nofun (List.lt_irrefl [])
    | cons d t => exact iff_of_true rfl (List.nil_lt_cons d t)
  | cons c s ih =>
    cases t with
    | nil => exact iff_of_false nofun (List.not_lt_nil (c :: s))
    | cons d t =>
      rw [List.compare_cons_cons, Ordering.then_eq_lt, List.cons_lt_cons_iff, ih,
        Std.compare_eq_iff_eq]
      exact or_congr_left compareOfLessAndEq_eq_lt

/-- Texts are compared character by character. -/
theorem compare_ofList (s t : List Char) :
    compare (String.ofList s) (String.ofList t) = compare s t := by
  have hlt : String.ofList s < String.ofList t ↔ compare s t = .lt := by
    rw [String.lt_iff, String.toList_ofList, String.toList_ofList, compare_chars_eq_lt_iff]
  have heq : String.ofList s = String.ofList t ↔ compare s t = .eq := by
    rw [String.ofList_inj, Std.compare_eq_iff_eq]
  change compareOfLessAndEq (String.ofList s) (String.ofList t) = _
  simp only [compareOfLessAndEq, hlt, heq]
  cases compare s t <;> rfl

theorem compare_hexText (as bs : List UInt8) :
    compare (hexText as) (hexText bs) = compare as bs := by
  rw [hexText, hexText, compare_ofList, List.compare_cons_cons, List.compare_cons_cons,
    compare_hexDigits]
  rfl

end Text

/-- Puts values into the order of their keys. -/
def sortBy {α β : Type} [Ord β] (key : α → β) (xs : List α) : List α :=
  xs.mergeSort fun a b => (compare (key a) (key b)).isLE

theorem sortBy_congr {α β γ : Type} [Ord β] [Ord γ] {key : α → β} {key' : α → γ}
    (h : ∀ a b, compare (key a) (key b) = compare (key' a) (key' b)) (xs : List α) :
    sortBy key xs = sortBy key' xs := by
  rw [sortBy, sortBy]
  simp only [h]

namespace Uint256

theorem compare_val (m n : Uint256) : compare m n = compare m.val n.val :=
  Bytes.compare_toNat m.bytes n.bytes

theorem compare_toBytes (m n : Uint256) : compare m.toBytes n.toBytes = compare m n := rfl

theorem Denotes.val_eq {text : String} {n : Uint256} {number : Nat} (h : Denotes text number)
    (hn : parse text = .ok n) : n.val = number := by
  have hnumber := denotes_iff.mp h
  rw [denotes_iff.mp (parse_eq_ok_iff.mp hn)] at hnumber
  exact Option.some.inj hnumber

end Uint256

theorem Node.compare_text (m n : Node) : compare m.text n.text = compare m n :=
  Text.compare_hexText m.bytes.toList n.bytes.toList

namespace Address

/-- The digits of the written address, all in lower case. -/
def lowered (a : Address) : String := String.ofList (a.checksumDigits.map Char.toLower)

theorem toLower_checksum (a : Address) : a.checksum.toLower = "0x" ++ a.lowered := by
  apply String.toList_injective
  change (a.checksum.map Char.toLower).toList = _
  simp only [String.toList_map, checksum, lowered, String.toList_append, String.toList_ofList,
    List.map_cons]
  rfl

theorem lowered_eq (a : Address) : a.lowered = String.ofList (Text.hexDigits a.bytes.toList) := by
  rw [lowered, Text.map_toLower_of_digits a.digits_checksumDigits, Text.hexDigits_eq_row]

theorem length_lowered (a : Address) : a.lowered.length = 40 := by
  rw [lowered_eq, String.length_ofList, Text.length_hexDigits, a.bytes.length_toList]

theorem compare_lowered (a b : Address) : compare a.lowered b.lowered = compare a b := by
  rw [lowered_eq, lowered_eq, Text.compare_ofList, Text.compare_hexDigits]
  rfl

end Address

/-- Integers that are read are compared as the numbers that their texts write, and that is the order
of their bytes, of their nodes and of the texts of their nodes. The order of addresses is that of
their digits in lower case. So it makes no difference by which of them values are sorted. -/
theorem compare_values_bytes_texts :
    (∀ text text' m n number number', Uint256.parse text = .ok m → Uint256.parse text' = .ok n →
      Uint256.Denotes text number → Uint256.Denotes text' number' →
      compare m n = compare number number') ∧
    (∀ m n : Uint256, compare m.toBytes n.toBytes = compare m n ∧
      compare (Node.ofUint256 m) (Node.ofUint256 n) = compare m n) ∧
    (∀ m n : Node, compare m n = compare m.text n.text) ∧
    (∀ a b : Address, compare a b = compare a.lowered b.lowered ∧
      a.checksum.toLower = "0x" ++ a.lowered ∧ a.lowered.length = 40) ∧
    (∀ ns : List Uint256, sortBy Uint256.val ns = sortBy Uint256.toBytes ns ∧
      sortBy Uint256.val ns = sortBy Node.ofUint256 ns ∧
      sortBy Uint256.val ns = sortBy (fun n => (Node.ofUint256 n).text) ns) ∧
    (∀ ns : List Node, sortBy Node.bytes ns = sortBy Node.text ns) ∧
    ∀ as : List Address, sortBy Address.bytes as = sortBy Address.lowered as := by
  have hnode (m n : Uint256) : compare (Node.ofUint256 m) (Node.ofUint256 n) = compare m n :=
    Uint256.compare_toBytes m n
  refine ⟨fun text text' m n number number' hm hn h h' => ?_,
    fun m n => ⟨Uint256.compare_toBytes m n, hnode m n⟩, fun m n => (Node.compare_text m n).symm,
    fun a b => ⟨(Address.compare_lowered a b).symm, a.toLower_checksum, a.length_lowered⟩,
    fun ns => ⟨?_, ?_, ?_⟩, fun ns => ?_, fun as => ?_⟩
  · rw [← h.val_eq hm, ← h'.val_eq hn, Uint256.compare_val]
  · exact sortBy_congr (fun m n => (Uint256.compare_val m n).symm) ns
  · exact sortBy_congr (fun m n => ((hnode m n).trans (Uint256.compare_val m n)).symm) ns
  · exact sortBy_congr (fun m n => ((Node.compare_text _ _).trans
      ((hnode m n).trans (Uint256.compare_val m n))).symm) ns
  · exact sortBy_congr (fun m n => (Node.compare_text m n).symm) ns
  · exact sortBy_congr (fun a b => (Address.compare_lowered a b).symm) as

/-- A hexadecimal and a decimal text: the first comes before the second as a text but not as
a number. -/
theorem compare_values_bytes_texts_spellings :
    ∃ m n, Uint256.parse " 0X00fF" = .ok m ∧ Uint256.parse "99" = .ok n ∧ compare m n = .gt ∧
      compare (Node.ofUint256 m).text (Node.ofUint256 n).text = .gt := by
  have hm : Uint256.parse " 0X00fF" = .ok (.ofUInt64 255) := by rfl
  have hn : Uint256.parse "99" = .ok (.ofUInt64 99) := by rfl
  obtain ⟨hread, hnodes, htexts, -⟩ := compare_values_bytes_texts
  have hvalues := hread _ _ _ _ 255 99 hm hn (Uint256.parse_eq_ok_iff.mp hm)
    (Uint256.parse_eq_ok_iff.mp hn)
  exact ⟨_, _, hm, hn, hvalues,
    (htexts _ _).symm.trans ((hnodes _ _).2.trans hvalues)⟩

end ClaimTree
