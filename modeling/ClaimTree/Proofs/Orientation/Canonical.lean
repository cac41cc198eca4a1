import ClaimTree.Proofs.Except
import ClaimTree.Proofs.Orientation

namespace ClaimTree.Orientation

/-- A byte for each of the first levels that is 0 or 1, and nothing but 0 behind them. -/
structure Canonical (o : Orientation) (depth : Nat) : Prop where
  sides : ∀ byte ∈ o.bytes.toList.take depth, byte = 0 ∨ byte = 1
  rest : ∀ byte ∈ o.bytes.toList.drop depth, byte = 0

variable {o packed : Orientation} {flags : List Bool} {depth : Nat}

theorem length_flags (o : Orientation) (hdepth : depth ≤ 32) : (o.flags depth).length = depth := by
  rw [Orientation.flags, List.length_map, List.length_take, o.bytes.length_toList,
    Nat.min_eq_left hdepth]

theorem canonical_of_ofFlags (h : ofFlags flags = .ok o) : o.Canonical flags.length := by
  obtain ⟨-, hbytes⟩ := toList_of_ofFlags h
  have hlength : (flags.map fun b => if b then (1 : UInt8) else 0).length = flags.length :=
    List.length_map _
  constructor
  · intro byte hbyte
    rw [hbytes, List.take_left' hlength] at hbyte
    obtain ⟨b, -, rfl⟩ := List.mem_map.mp hbyte
    cases b
    · exact .inl rfl
    · exact .inr rfl
  · intro byte hbyte
    rw [hbytes, List.drop_left' hlength] at hbyte
    exact List.eq_of_mem_replicate hbyte

/-- Bytes that are 0 or 1 are determined by which of them are 0. -/
theorem eq_of_map_ne_zero_eq {as bs : List UInt8} (has : ∀ a ∈ as, a = 0 ∨ a = 1)
    (hbs : ∀ b ∈ bs, b = 0 ∨ b = 1) (h : as.map (· != 0) = bs.map (· != 0)) : as = bs := by
  induction as generalizing bs with
  | nil => exact (List.map_eq_nil_iff.mp h.symm).symm
  | cons a as ih =>
    obtain ⟨b, bs, rfl, hhead, htail⟩ := List.map_eq_cons_iff.mp h.symm
    obtain ⟨ha, has⟩ := List.forall_mem_cons.mp has
    obtain ⟨hb, hbs⟩ := List.forall_mem_cons.mp hbs
    have hab : a = b := by
      rcases ha with rfl | rfl <;> rcases hb with rfl | rfl
      · rfl
      · cases hhead
      · cases hhead
      · rfl
    rw [hab, ih has hbs htail.symm]

/-- There is one canonical way to pack sides. -/
theorem Canonical.eq_of_flags_eq (ho : o.Canonical depth) (hpacked : packed.Canonical depth)
    (h : packed.flags depth = o.flags depth) : packed = o := by
  have hsides : packed.bytes.toList.take depth = o.bytes.toList.take depth :=
    eq_of_map_ne_zero_eq hpacked.sides ho.sides h
  have hlength : (packed.bytes.toList.drop depth).length = (o.bytes.toList.drop depth).length := by
    rw [List.length_drop, List.length_drop, packed.bytes.length_toList, o.bytes.length_toList]
  have hrest : packed.bytes.toList.drop depth = o.bytes.toList.drop depth := by
    rw [List.eq_replicate_of_mem hpacked.rest, List.eq_replicate_of_mem ho.rest, hlength]
  apply Orientation.ext
  apply Bytes.ext
  rw [← List.take_append_drop depth packed.bytes.toList, hsides, hrest, List.take_append_drop]

/-- The sides that are read can always be packed again, and canonically. -/
theorem exists_repacked (o : Orientation) (hdepth : depth ≤ 32) :
    ∃ packed, ofFlags (o.flags depth) = .ok packed ∧ packed.Canonical depth ∧
      packed.flags depth = o.flags depth := by
  have hlength := o.length_flags hdepth
  obtain ⟨packed, hpacked, hflags⟩ := exists_ofFlags (Nat.le_trans (Nat.le_of_eq hlength) hdepth)
  have hcanonical := canonical_of_ofFlags hpacked
  rw [hlength] at hflags hcanonical
  exact ⟨packed, hpacked, hcanonical, hflags⟩

theorem ofFlags_flags_eq_ok_iff (hdepth : depth ≤ 32) :
    ofFlags (o.flags depth) = .ok o ↔ o.Canonical depth := by
  obtain ⟨packed, hpacked, hcanonical, hflags⟩ := o.exists_repacked hdepth
  constructor
  · intro h
    obtain rfl := Except.ok.inj (hpacked.symm.trans h)
    exact hcanonical
  · intro ho
    rw [hpacked, ho.eq_of_flags_eq hcanonical hflags]

theorem text_injective : Function.Injective text := injective_of_read_back parse_text

theorem exists_digits_text (o : Orientation) :
    ∃ digits, o.text = String.ofList ('0' :: 'x' :: digits) ∧ digits.length = 64 ∧
      ∀ c ∈ digits, ∃ d < 16, c = Nat.digitChar d := by
  refine ⟨Text.hexDigits o.bytes.toList, rfl, ?_, ?_⟩
  · rw [Text.length_hexDigits, o.bytes.length_toList]
  · intro c hc
    rw [Text.hexDigits_eq_row] at hc
    obtain ⟨d, hd, rfl⟩ := List.mem_map.mp hc
    exact ⟨d, Text.nibbles_lt hd, rfl⟩

/-- Sides are packed just when there are at most 32 of them, always canonically, and are read back.
What is read from any bytes is packed as these very bytes just when they are canonical, and as others
with the same sides when they are not. It is no different when the bytes go through their text. -/
theorem packed_sides_canonical :
    (∀ (flags : List Bool) (e : TreeError), ofFlags flags = .error e ↔
      32 < flags.length ∧ e = .pathTooLong flags.length) ∧
    (∀ flags : List Bool, flags.length ≤ 32 → ∃ o, ofFlags flags = .ok o ∧
      o.flags flags.length = flags ∧ o.Canonical flags.length ∧
      ∃ read, parse o.text = .ok read ∧ read.flags flags.length = flags) ∧
    ∀ (o : Orientation) (depth : Nat), depth ≤ 32 →
      (ofFlags (o.flags depth) = .ok o ↔ o.Canonical depth) ∧
      (¬o.Canonical depth → ∃ packed ≠ o, ofFlags (o.flags depth) = .ok packed ∧
        packed.Canonical depth ∧ packed.flags depth = o.flags depth) ∧
      ∃ digits read, o.text = String.ofList ('0' :: 'x' :: digits) ∧ digits.length = 64 ∧
        (∀ c ∈ digits, ∃ d < 16, c = Nat.digitChar d) ∧ parse o.text = .ok read ∧
        ((ofFlags (read.flags depth)).map text = .ok o.text ↔ o.Canonical depth) := by
  refine ⟨fun _ _ => ofFlags_eq_error_iff, fun flags hlength => ?_, fun o depth hdepth => ?_⟩
  · obtain ⟨o, ho, hflags⟩ := exists_ofFlags hlength
    exact ⟨o, ho, hflags, canonical_of_ofFlags ho, o, o.parse_text, hflags⟩
  · obtain ⟨packed, hpacked, hcanonical, hflags⟩ := o.exists_repacked hdepth
    obtain ⟨digits, htext, hlength, hdigits⟩ := o.exists_digits_text
    refine ⟨ofFlags_flags_eq_ok_iff hdepth, fun ho => ?_, digits, o, htext, hlength, hdigits,
      o.parse_text, ?_⟩
    · refine ⟨packed, ?_, hpacked, hcanonical, hflags⟩
      rintro rfl
      exact ho hcanonical
    · rw [← ofFlags_flags_eq_ok_iff hdepth, hpacked]
      constructor
      · intro h
        rw [text_injective (Except.ok.inj h)]
      · intro h
        rw [Except.ok.inj h]
        rfl

/-- A byte other than 0 and 1 on a level of the path, and a byte behind the path. -/
theorem packed_sides_canonical_loose_bytes :
    let flags := [true, false, true]
    let loose : Orientation := ⟨⟨2 :: 0 :: 1 :: List.replicate 29 0, rfl⟩⟩
    let long : Orientation := ⟨⟨1 :: 0 :: 1 :: 1 :: List.replicate 28 0, rfl⟩⟩
    flags.length ≤ 32 ∧ loose.flags 3 = flags ∧ long.flags 3 = flags ∧
      ∃ o, ofFlags flags = .ok o ∧ o.flags 3 = flags ∧ o ≠ loose ∧ o ≠ long ∧
        (∃ read, parse o.text = .ok read ∧ read.flags 3 = flags) ∧
        ofFlags (List.replicate 33 false) = .error (.pathTooLong 33) := by
  intro flags loose long
  obtain ⟨htoo, hpacks, hreads⟩ := packed_sides_canonical
  obtain ⟨o, ho, hflags, -, hread⟩ := hpacks flags (by decide)
  have hloose : ¬loose.Canonical 3 := by
    intro h
    have hbyte := h.sides 2 List.mem_cons_self
    revert hbyte
    decide
  have hlong : ¬long.Canonical 3 := by
    intro h
    have hbyte := h.rest 1 List.mem_cons_self
    revert hbyte
    decide
  refine ⟨by decide, rfl, rfl, o, ho, hflags, ?_, ?_, hread, (htoo _ _).mpr ⟨by decide, rfl⟩⟩
  · rintro rfl
    exact hloose ((hreads loose 3 (by decide)).1.mp (hflags ▸ ho))
  · rintro rfl
    exact hlong ((hreads long 3 (by decide)).1.mp (hflags ▸ ho))

end ClaimTree.Orientation
