import ClaimTree.Proofs.Address
import ClaimTree.Proofs.Node
import ClaimTree.Proofs.Orientation

namespace ClaimTree

namespace Text

open Address (nibbles)

/-- Between white space, and behind at most one marker, the text has just these digits, and there
are `count` of them. -/
structure HexRow (count : Nat) (text : String) (digits : List Char) : Prop where
  length_eq : digits.length = count
  isDigit : ∀ c ∈ digits, ∃ d, IsDigit 16 c d
  around : ∃ marker ∈ markers, Trimmed text.toList (marker ++ digits)

/-- Each byte is written by the two digits at its place, the high half first. -/
def PairsOf (digits : List Char) (bs : List UInt8) : Prop :=
  digits.length = 2 * bs.length ∧ ∀ place < bs.length, ∃ c d high low,
    digits[2 * place]? = some c ∧ digits[2 * place + 1]? = some d ∧ IsDigit 16 c high ∧
    IsDigit 16 d low ∧ bs[place]? = some (UInt8.ofNat (16 * high + low))

/-- A marker and `count` lowercase digits. -/
def CanonicalHex (count : Nat) (text : String) : Prop :=
  ∃ digits, text = String.ofList ('0' :: 'x' :: digits) ∧ digits.length = count ∧
    ∀ c ∈ digits, ∃ d < 16, c = Nat.digitChar d

section Digits

variable {s : List Char} {bs : List UInt8}

theorem pairsOf_of_digits (hs : List.Forall₂ (IsDigit 16) s (nibbles bs)) : PairsOf s bs := by
  refine ⟨by rw [hs.length_eq, length_nibbles], fun place hplace => ?_⟩
  induction bs generalizing s place with
  | nil => cases hplace
  | cons b bs ih =>
    obtain _ | @⟨c, _, _, _, hc, _ | @⟨d, _, rest, _, hd, hrest⟩⟩ := hs
    cases place with
    | zero =>
      refine ⟨c, d, _, _, rfl, rfl, hc, hd, ?_⟩
      rw [Nat.mul_comm, Nat.div_add_mod', UInt8.ofNat_toNat]
      rfl
    | succ place =>
      obtain ⟨c', d', high, low, hc', hd', hplaces⟩ :=
        ih hrest place (Nat.lt_of_succ_lt_succ hplace)
      exact ⟨c', d', high, low, hc', hd', hplaces⟩

/-- An even number of digits writes half as many bytes. -/
theorem exists_bytes {n : Nat} (hlength : s.length = 2 * n)
    (hs : ∀ c ∈ s, ∃ d, IsDigit 16 c d) :
    ∃ b : Bytes n, List.Forall₂ (IsDigit 16) s (nibbles b.toList) := by
  induction n generalizing s with
  | zero =>
    obtain rfl := List.eq_nil_of_length_eq_zero hlength
    exact ⟨⟨[], rfl⟩, .nil⟩
  | succ n ih =>
    obtain _ | ⟨c, _ | ⟨d, rest⟩⟩ := s
    · cases hlength
    · simp only [List.length_cons, List.length_nil] at hlength
      omega
    obtain ⟨⟨high, hc⟩, ⟨low, hd⟩, hrest⟩ :
        (∃ v, IsDigit 16 c v) ∧ (∃ v, IsDigit 16 d v) ∧ ∀ c ∈ rest, ∃ v, IsDigit 16 c v := by
      simpa only [List.forall_mem_cons] using hs
    obtain ⟨b, hb⟩ := ih (by simp only [List.length_cons] at hlength; omega) hrest
    refine ⟨⟨UInt8.ofNat (high * 16 + low) :: b.toList, ?_⟩, ?_⟩
    · rw [List.length_cons, b.length_toList]
    · rw [nibbles_ofNat_cons hc.1 hd.1]
      exact .cons hc (.cons hd hb)

theorem exists_marker (core : List Char) :
    ∃ marker ∈ markers, core = marker ++ dropMarker core := by
  unfold dropMarker
  split
  · exact ⟨['0', 'x'], by decide, rfl⟩
  · exact ⟨['0', 'X'], by decide, rfl⟩
  · exact ⟨[], by decide, rfl⟩

theorem toLower_of_isDigit {c : Char} {d : Nat} (h : IsDigit 16 c d) :
    c.toLower = Nat.digitChar d := by
  have hall : ∀ d < 16, (Nat.digitChar d).toLower = Nat.digitChar d ∧
      (Nat.digitChar d).toUpper.toLower = Nat.digitChar d := by decide
  obtain ⟨hd, rfl | rfl⟩ := h
  · exact (hall d hd).1
  · exact (hall d hd).2

theorem map_toLower_of_digits {ds : List Nat} (hs : List.Forall₂ (IsDigit 16) s ds) :
    s.map Char.toLower = row ds := by
  induction hs with
  | nil => rfl
  | cons hd _ ih => rw [List.map_cons, ih, toLower_of_isDigit hd, row, row, List.map_cons]

theorem canonicalHex_hexText {n : Nat} (b : Bytes n) :
    CanonicalHex (2 * n) (hexText b.toList) := by
  refine ⟨hexDigits b.toList, rfl, by rw [length_hexDigits, b.length_toList], fun c hc => ?_⟩
  rw [hexDigits_eq_row] at hc
  obtain ⟨d, hd, rfl⟩ := List.mem_map.mp hc
  exact ⟨d, nibbles_lt hd, rfl⟩

end Digits

section Reading

variable {n : Nat} {text : String} {digits : List Char}

theorem HexRow.dropMarker_trim (h : HexRow (2 * n) text digits) :
    dropMarker (trim text.toList) = digits := by
  obtain ⟨marker, hmarker, htrimmed⟩ := h.around
  obtain ⟨b, hb⟩ := exists_bytes h.length_eq h.isDigit
  rw [htrimmed.trim_eq, dropMarker_append hmarker hb]

theorem fixedHex?_eq_some_iff {b : Bytes n} : fixedHex? n text = some b ↔
    ∃ digits, HexRow (2 * n) text digits ∧
      List.Forall₂ (IsDigit 16) digits (nibbles b.toList) := by
  constructor
  · intro h
    obtain ⟨bs, hbs, hb⟩ := Option.bind_eq_some_iff.mp h
    rw [Bytes.ofList?, Option.dite_none_right_eq_some] at hb
    obtain ⟨hlength, hb⟩ := hb
    obtain rfl := Option.some.inj hb
    rw [hexBytes?_eq_some_iff] at hbs
    obtain ⟨marker, hmarker, hcore⟩ := exists_marker (trim text.toList)
    refine ⟨_, ⟨?_, fun c hc => exists_digit hbs hc, marker, hmarker, ?_⟩, hbs⟩
    · rw [hbs.length_eq, length_nibbles, hlength]
    · rw [← hcore]
      exact trimmed_trim text.toList
  · rintro ⟨digits, hrow, hdigits⟩
    rw [fixedHex?, hrow.dropMarker_trim, hexBytes?_eq_some_iff.mpr hdigits, Option.bind_some,
      Bytes.ofList?, dif_pos b.length_toList]

theorem HexRow.exists_fixedHex? (h : HexRow (2 * n) text digits) :
    ∃ b, fixedHex? n text = some b := by
  obtain ⟨b, hb⟩ := exists_bytes h.length_eq h.isDigit
  exact ⟨b, fixedHex?_eq_some_iff.mpr ⟨digits, h, hb⟩⟩

theorem HexRow.digits_of_fixedHex? (h : HexRow (2 * n) text digits) {b : Bytes n}
    (hb : fixedHex? n text = some b) : List.Forall₂ (IsDigit 16) digits (nibbles b.toList) := by
  obtain ⟨digits', h', hdigits⟩ := fixedHex?_eq_some_iff.mp hb
  rwa [← h'.dropMarker_trim, h.dropMarker_trim] at hdigits

end Reading

/-- The reader takes just the texts of `count` digits, as the bytes that the pairs of digits write,
and refuses all others as they were given. -/
structure ReadsPairs {α : Type} (count : Nat) (parse : String → Except FieldError α)
    (bytes : α → List UInt8) (fault : String → FieldError) : Prop where
  accepts : ∀ text, (∃ a, parse text = .ok a) ↔ ∃ digits, HexRow count text digits
  value : ∀ text digits a, HexRow count text digits → parse text = .ok a →
    PairsOf digits (bytes a)
  refuses : ∀ text, (¬∃ digits, HexRow count text digits) → parse text = .error (fault text)

theorem ReadsPairs.of_fixedHex? {α : Type} {n : Nat} {parse : String → Except FieldError α}
    {bytes : α → List UInt8} {fault : String → FieldError} (make : Bytes n → α)
    (hmake : ∀ b, bytes (make b) = b.toList)
    (hsome : ∀ text b, fixedHex? n text = some b → parse text = .ok (make b))
    (hnone : ∀ text, fixedHex? n text = none → parse text = .error (fault text)) :
    ReadsPairs (2 * n) parse bytes fault where
  accepts text := by
    constructor
    · rintro ⟨a, ha⟩
      cases h : fixedHex? n text with
      | none =>
        rw [hnone text h] at ha
        cases ha
      | some b =>
        obtain ⟨digits, hrow, -⟩ := fixedHex?_eq_some_iff.mp h
        exact ⟨digits, hrow⟩
    · rintro ⟨digits, hrow⟩
      obtain ⟨b, hb⟩ := hrow.exists_fixedHex?
      exact ⟨make b, hsome text b hb⟩
  value text digits a hrow ha := by
    obtain ⟨b, hb⟩ := hrow.exists_fixedHex?
    rw [hsome text b hb] at ha
    rw [← Except.ok.inj ha, hmake]
    exact pairsOf_of_digits (hrow.digits_of_fixedHex? hb)
  refuses text hrow := by
    cases h : fixedHex? n text with
    | none => exact hnone text h
    | some b =>
      obtain ⟨digits, hdigits, -⟩ := fixedHex?_eq_some_iff.mp h
      exact absurd ⟨digits, hdigits⟩ hrow

/-- The writer gives each value one text, which reads back: a marker and lowercase digits. Reading a
text and writing it again changes no digit but for its case. -/
structure WritesCanonical {α : Type} (count : Nat) (parse : String → Except FieldError α)
    (write : α → String) : Prop where
  canonical : ∀ a, CanonicalHex count (write a)
  reads_back : ∀ a, parse (write a) = .ok a
  rewrites : ∀ text digits a, HexRow count text digits → parse text = .ok a →
    write a = String.ofList ('0' :: 'x' :: digits.map Char.toLower)

theorem WritesCanonical.of_fixedHex? {α : Type} {n : Nat} {parse : String → Except FieldError α}
    {bytes : α → Bytes n} {write : α → String} (hback : ∀ a, parse (write a) = .ok a)
    (hwrite : ∀ a, write a = hexText (bytes a).toList)
    (hparse : ∀ text a, parse text = .ok a → fixedHex? n text = some (bytes a)) :
    WritesCanonical (2 * n) parse write where
  canonical a := by
    rw [hwrite]
    exact canonicalHex_hexText (bytes a)
  reads_back := hback
  rewrites text digits a hrow ha := by
    have hdigits := hrow.digits_of_fixedHex? (hparse text a ha)
    rw [hwrite, hexText, hexDigits_eq_row, map_toLower_of_digits hdigits]

end Text

open Text

theorem Address.readsPairs : ReadsPairs 40 Address.parse (·.bytes.toList) .address :=
  .of_fixedHex? Address.mk (fun _ => rfl) (fun text b h => by rw [parse, h])
    fun text h => by rw [parse, h]

theorem Node.readsPairs : ReadsPairs 64 Node.parse (·.bytes.toList) .node :=
  .of_fixedHex? Node.mk (fun _ => rfl) (fun text b h => by rw [parse, h])
    fun text h => by rw [parse, h]

theorem Node.fixedHex?_of_parse {text : String} {n : Node} (h : parse text = .ok n) :
    fixedHex? 32 text = some n.bytes := by
  rw [parse] at h
  split at h
  · cases h
  · next hb =>
    rw [hb, ← Except.ok.inj h]

theorem Node.writesCanonical : WritesCanonical 64 Node.parse Node.text :=
  .of_fixedHex? (n := 32) parse_text (fun _ => rfl) fun _ _ => fixedHex?_of_parse

theorem Orientation.readsPairs : ReadsPairs 64 Orientation.parse (·.bytes.toList) .node :=
  .of_fixedHex? Orientation.mk (fun _ => rfl) (fun text b h => by rw [parse, h])
    fun text h => by rw [parse, h]

theorem Orientation.fixedHex?_of_parse {text : String} {o : Orientation} (h : parse text = .ok o) :
    fixedHex? 32 text = some o.bytes := by
  rw [parse] at h
  split at h
  · cases h
  · next hb =>
    rw [hb, ← Except.ok.inj h]

theorem Orientation.writesCanonical : WritesCanonical 64 Orientation.parse Orientation.text :=
  .of_fixedHex? (n := 32) parse_text (fun _ => rfl) fun _ _ => fixedHex?_of_parse

namespace Text

/-- An address is read from 40 digits and a node or packed sides from 64, as the bytes that the
pairs of digits write, with white space around and at most one marker in front; all other texts are
refused as they were given. Nodes and packed sides have one written text each, in lowercase digits
behind a marker, and it reads back. The text of a node is also an integer text, and the node is
that of the integer. -/
theorem fixed_width_texts :
    ReadsPairs 40 Address.parse (·.bytes.toList) .address ∧
    ReadsPairs 64 Node.parse (·.bytes.toList) .node ∧
    ReadsPairs 64 Orientation.parse (·.bytes.toList) .node ∧
    WritesCanonical 64 Node.parse Node.text ∧
    WritesCanonical 64 Orientation.parse Orientation.text ∧
    ∀ n : Node, ∃ u, Uint256.Denotes n.text u.val ∧ Uint256.parse n.text = .ok u ∧
      Node.ofUint256 u = n :=
  ⟨Address.readsPairs, Node.readsPairs, Orientation.readsPairs, Node.writesCanonical,
    Orientation.writesCanonical, fun n => ⟨n.toUint256,
      Uint256.parse_eq_ok_iff.mp n.parse_text_uint256, n.parse_text_uint256,
      n.ofUint256_toUint256⟩⟩

/-- Digits in both cases behind a capital marker and between blanks, and two texts that are refused:
a marker that stands twice, and a blank behind the marker. -/
theorem fixed_width_texts_spellings :
    let spelled := "\u2003 0X5AAEB6053F3E94C9B9A09F33669435E7EF1beaed\n"
    let twice := "0x0x5aaeb6053f3e94c9b9a09f33669435e7ef1beaed"
    let apart := "0x 5aaeb6053f3e94c9b9a09f33669435e7ef1beaed"
    (∃ digits, HexRow 40 spelled digits ∧ ∃ a, Address.parse spelled = .ok a ∧
      PairsOf digits a.bytes.toList) ∧
      Address.parse twice = .error (.address twice) ∧
      Address.parse apart = .error (.address apart) := by
  intro spelled twice apart
  obtain ⟨⟨haccepts, hvalue, hrefuses⟩, -⟩ := fixed_width_texts
  have hrow : HexRow 40 "\u2003 0X5AAEB6053F3E94C9B9A09F33669435E7EF1beaed\n"
      "5AAEB6053F3E94C9B9A09F33669435E7EF1beaed".toList := by
    refine ⟨by rfl, ?_, ['0', 'X'], by decide, trim_eq_iff.mp (by decide +kernel)⟩
    have hall : "5AAEB6053F3E94C9B9A09F33669435E7EF1beaed".toList.all
        (fun c => (digit? c).isSome) = true := by rfl
    intro c hc
    obtain ⟨d, hd⟩ := Option.isSome_iff_exists.mp (List.all_eq_true.mp hall c hc)
    exact ⟨d, digit?_eq_some_iff.mp hd⟩
  obtain ⟨a, ha⟩ := (haccepts _).mpr ⟨_, hrow⟩
  have hforeign {text : String} {c : Char} (hc : digit? c = none)
      (hmem : c ∈ dropMarker (trim text.toList)) : ¬∃ digits, HexRow (2 * 20) text digits := by
    rintro ⟨digits, h⟩
    rw [h.dropMarker_trim] at hmem
    obtain ⟨d, hd⟩ := h.isDigit c hmem
    exact not_isDigit hc (Nat.le_refl _) hd
  refine ⟨⟨_, hrow, a, ha, hvalue _ _ _ hrow ha⟩, hrefuses _ ?_, hrefuses _ ?_⟩
  · exact hforeign (c := 'x') rfl (by decide)
  · exact hforeign (c := ' ') rfl (by decide)

end Text

end ClaimTree
