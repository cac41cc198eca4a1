import ClaimTree.Proofs.Text.Blank
import ClaimTree.Text.Digit
import Mathlib.Algebra.Group.Nat.Defs

namespace ClaimTree.Text

/-- The character `c` writes the digit of value `d`, a letter in either case. -/
def IsDigit (base : Nat) (c : Char) (d : Nat) : Prop :=
  d < base ∧ (c = Nat.digitChar d ∨ c = (Nat.digitChar d).toUpper)

instance (base : Nat) (c : Char) (d : Nat) : Decidable (IsDigit base c d) :=
  inferInstanceAs (Decidable (_ ∧ _))

section IsDigit

variable {base : Nat} {c : Char} {d e : Nat}

theorem isDigit_digitChar (hd : d < base) : IsDigit base (Nat.digitChar d) d := ⟨hd, .inl rfl⟩

/-- The values of the characters from `first` to `last` count up from `low`. -/
theorem isDigit_of_range {first last : Char} {low : Nat}
    (hrange : ∀ d ≤ last.toNat - first.toNat, IsDigit 16 (Char.ofNat (first.toNat + d)) (d + low))
    (hfirst : first ≤ c) (hlast : c ≤ last) : IsDigit 16 c (c.toNat - first.toNat + low) := by
  have hle : first.toNat ≤ c.toNat := hfirst
  have hle' : c.toNat ≤ last.toNat := hlast
  have hc := hrange (c.toNat - first.toNat) (Nat.sub_le_sub_right hle' _)
  rwa [Nat.add_sub_cancel' hle, Char.ofNat_toNat] at hc

theorem digit?_eq_some_iff : digit? c = some d ↔ IsDigit 16 c d := by
  constructor
  · intro h
    rw [digit?] at h
    split at h
    · next hc =>
      rw [← Option.some.inj h]
      have hrange : ∀ d ≤ '9'.toNat - '0'.toNat,
          IsDigit 16 (Char.ofNat ('0'.toNat + d)) (d + 0) := by decide
      exact isDigit_of_range hrange hc.1 hc.2
    · split at h
      · next hc =>
        rw [← Option.some.inj h]
        exact isDigit_of_range (by decide) hc.1 hc.2
      · split at h
        · next hc =>
          rw [← Option.some.inj h]
          exact isDigit_of_range (by decide) hc.1 hc.2
        · cases h
  · rintro ⟨hd, rfl | rfl⟩
    · have hlower : ∀ d < 16, digit? (Nat.digitChar d) = some d := by decide
      exact hlower d hd
    · have hupper : ∀ d < 16, digit? (Nat.digitChar d).toUpper = some d := by decide
      exact hupper d hd

theorem digitBelow?_eq_some_iff (hbase : base ≤ 16) :
    digitBelow? base c = some d ↔ IsDigit base c d := by
  rw [digitBelow?, Option.filter_eq_some_iff, digit?_eq_some_iff, decide_eq_true_iff]
  constructor
  · rintro ⟨⟨-, hc⟩, hd⟩
    exact ⟨hd, hc⟩
  · rintro ⟨hd, hc⟩
    exact ⟨⟨Nat.lt_of_lt_of_le hd hbase, hc⟩, hd⟩

theorem IsDigit.mono {bound : Nat} (h : IsDigit base c d) (hbase : base ≤ bound) :
    IsDigit bound c d := ⟨Nat.lt_of_lt_of_le h.1 hbase, h.2⟩

theorem not_isDigit (hc : digit? c = none) (hbase : base ≤ 16) : ¬IsDigit base c d := by
  intro h
  have hd := digit?_eq_some_iff.mpr (h.mono hbase)
  rw [hc] at hd
  cases hd

theorem IsDigit.unique (hd : IsDigit 16 c d) (he : IsDigit 16 c e) : d = e := by
  rw [← digit?_eq_some_iff] at hd he
  exact Option.some.inj (hd.symm.trans he)

theorem IsDigit.isBlank (h : IsDigit 16 c d) : isBlank c = false := by
  have hall : ∀ d < 16, Text.isBlank (Nat.digitChar d) = false ∧
      Text.isBlank (Nat.digitChar d).toUpper = false := by decide
  obtain ⟨hd, rfl | rfl⟩ := h
  · exact (hall d hd).1
  · exact (hall d hd).2

end IsDigit

/-- The characters of digits below sixteen. -/
def row (ds : List Nat) : List Char := ds.map Nat.digitChar

section Row

variable {base : Nat} {ds : List Nat}

theorem row_append (ds es : List Nat) : row (ds ++ es) = row ds ++ row es := List.map_append

theorem solid_row (hds : ∀ d ∈ ds, d < 16) : Solid (row ds) := by
  intro c hc
  obtain ⟨d, hd, rfl⟩ := List.mem_map.mp hc
  exact (isDigit_digitChar (hds d hd)).isBlank

theorem positional_singleton (base d : Nat) : positional base [d] = d := by
  rw [positional, List.foldl_cons, List.foldl_nil, Nat.zero_mul, Nat.zero_add]

theorem positional_append_singleton (base : Nat) (ds : List Nat) (d : Nat) :
    positional base (ds ++ [d]) = positional base ds * base + d := by
  rw [positional, List.foldl_append]
  rfl

/-- A number is written by a row of digits that denote it. -/
theorem exists_row_eq_toDigits (base : Nat) (hpos : 1 < base) (n : Nat) :
    ∃ ds, ds ≠ [] ∧ (∀ d ∈ ds, d < base) ∧ positional base ds = n ∧
      Nat.toDigits base n = row ds := by
  induction n using Nat.strongRecOn with
  | _ n ih =>
    by_cases hn : n < base
    · exact ⟨[n], List.cons_ne_nil _ _, List.forall_mem_singleton.mpr hn,
        positional_singleton base n, Nat.toDigits_of_lt_base hn⟩
    · have hle : base ≤ n := Nat.le_of_not_lt hn
      obtain ⟨ds, hne, hds, hvalue, hrow⟩ := ih (n / base) (Nat.div_lt_self (by omega) hpos)
      refine ⟨ds ++ [n % base], by simp, ?_, ?_, ?_⟩
      · intro d hd
        rcases List.mem_append.mp hd with hupper | hlast
        · exact hds d hupper
        · rw [List.mem_singleton.mp hlast]
          exact Nat.mod_lt n (by omega)
      · rw [positional_append_singleton, hvalue, Nat.mul_comm, Nat.div_add_mod]
      · rw [Nat.toDigits_of_base_le hpos hle, hrow, row_append]
        rfl

theorem solid_toDigits (n : Nat) : Solid (Nat.toDigits 10 n) := by
  obtain ⟨ds, -, hds, -, hrow⟩ := exists_row_eq_toDigits 10 (by decide) n
  rw [hrow]
  exact solid_row fun d hd => Nat.lt_trans (hds d hd) (by decide)

/-- The digits of a number start with zero only if it is zero. -/
theorem toDigits_head {n : Nat} {s : List Char} (hbase : 1 < base)
    (h : Nat.toDigits base n = '0' :: s) : n = 0 ∧ s = [] := by
  suffices hzero : n = 0 by
    rw [hzero, Nat.toDigits_zero] at h
    exact ⟨hzero, (List.cons.inj h).2.symm⟩
  induction n using Nat.strongRecOn generalizing s with
  | _ n ih =>
    by_cases hn : n < base
    · rw [Nat.toDigits_of_lt_base hn] at h
      exact Nat.digitChar_eq_zero.mp (List.cons.inj h).1
    · have hle : base ≤ n := Nat.le_of_not_lt hn
      rw [Nat.toDigits_of_base_le hbase hle] at h
      cases hupper : Nat.toDigits base (n / base) with
      | nil => exact absurd hupper Nat.toDigits_ne_nil
      | cons c upper =>
        rw [hupper] at h
        obtain ⟨rfl, -⟩ := List.cons.inj h
        have hquotient := ih (n / base) (Nat.div_lt_self (by omega) hbase) hupper
        exact absurd ((Nat.div_eq_zero_iff_lt (by omega)).mp hquotient) hn

end Row

end ClaimTree.Text
