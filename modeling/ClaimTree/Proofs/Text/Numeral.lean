import ClaimTree.Proofs.Text.Digit
import Mathlib.Data.List.Induction

namespace ClaimTree.Text

/-- The texts that write a number with one or more digits and nothing else. -/
inductive Numeral (base : Nat) : List Char → Nat → Prop
  | digit {c : Char} {d : Nat} : IsDigit base c d → Numeral base [c] d
  | more {s : List Char} {n : Nat} {c : Char} {d : Nat} : Numeral base s n → IsDigit base c d →
    Numeral base (s ++ [c]) (n * base + d)

/-- Zeros in front of a row of digits. -/
def zeros (count : Nat) : List Char := List.replicate count '0'

/-- The lowercase digits of which none could be left out: a zero comes first only where it is
alone. -/
structure Shortest (base : Nat) (s : List Char) : Prop where
  digits : ∀ c ∈ s, ∃ d < base, c = Nat.digitChar d
  ne_nil : s ≠ []
  first : s.head? = some '0' → s = ['0']

section Reading

variable {base : Nat} {s : List Char} {n : Nat}

theorem number?_singleton (base : Nat) (c : Char) : number? base [c] = digitBelow? base c := by
  rw [number?, if_neg (by simp), List.mapM_cons, List.mapM_nil]
  cases digitBelow? base c with
  | none => rfl
  | some d => exact congrArg some (positional_singleton base d)

/-- One digit more moves the others up by one place. -/
theorem number?_concat (hne : s ≠ []) (c : Char) :
    number? base (s ++ [c]) = do
      let n ← number? base s
      let d ← digitBelow? base c
      return n * base + d := by
  rw [number?, if_neg (by simp), number?, if_neg (by simp [hne]), List.mapM_append]
  cases s.mapM (digitBelow? base) with
  | none => rfl
  | some ds =>
    rw [List.mapM_cons, List.mapM_nil]
    cases digitBelow? base c with
    | none => rfl
    | some d => exact congrArg some (positional_append_singleton base ds d)

theorem Numeral.ne_nil (h : Numeral base s n) : s ≠ [] := by
  cases h <;> simp

/-- The reader accepts the numerals, and reads the number that they write. -/
theorem number?_eq_some_iff (hbase : base ≤ 16) : number? base s = some n ↔ Numeral base s n := by
  constructor
  · intro h
    induction s using List.reverseRecOn generalizing n with
    | nil => cases h
    | append_singleton s c ih =>
      by_cases hne : s = []
      · rw [hne, List.nil_append, number?_singleton, digitBelow?_eq_some_iff hbase] at h
        rw [hne]
        exact .digit h
      · rw [number?_concat hne] at h
        obtain ⟨m, hm, hrest⟩ := Option.bind_eq_some_iff.mp h
        obtain ⟨d, hd, hn⟩ := Option.bind_eq_some_iff.mp hrest
        rw [← Option.some.inj hn]
        exact .more (ih hm) ((digitBelow?_eq_some_iff hbase).mp hd)
  · intro h
    induction h with
    | digit hd => rwa [number?_singleton, digitBelow?_eq_some_iff hbase]
    | more hs hd ih =>
      rw [number?_concat hs.ne_nil, ih, (digitBelow?_eq_some_iff hbase).mpr hd]
      rfl

theorem Numeral.exists_digit (h : Numeral base s n) {c : Char} (hc : c ∈ s) :
    ∃ d, IsDigit base c d := by
  induction h with
  | digit hd =>
    rw [List.mem_singleton.mp hc]
    exact ⟨_, hd⟩
  | more hs hd ih =>
    rcases List.mem_append.mp hc with hupper | hlast
    · exact ih hupper
    · rw [List.mem_singleton.mp hlast]
      exact ⟨_, hd⟩

theorem Numeral.not_mem (h : Numeral base s n) (hbase : base ≤ 16) {c : Char}
    (hc : digit? c = none) : c ∉ s := by
  intro hmem
  obtain ⟨d, hd⟩ := h.exists_digit hmem
  exact not_isDigit hc hbase hd

/-- Every row of digits writes a number. -/
theorem exists_numeral_of_digits (hne : s ≠ []) (h : ∀ c ∈ s, ∃ d, IsDigit base c d) :
    ∃ n, Numeral base s n := by
  induction s using List.reverseRecOn with
  | nil => exact absurd rfl hne
  | append_singleton s c ih =>
    obtain ⟨hupper, hlast⟩ := List.forall_mem_append.mp h
    obtain ⟨d, hd⟩ := hlast c List.mem_cons_self
    by_cases hsingle : s = []
    · rw [hsingle]
      exact ⟨d, .digit hd⟩
    · obtain ⟨n, hn⟩ := ih hsingle hupper
      exact ⟨n * base + d, .more hn hd⟩

theorem isNumeral_iff (hbase : base ≤ 16) : isNumeral base s = true ↔ ∃ n, Numeral base s n := by
  rw [isNumeral, Bool.and_eq_true_iff, List.all_eq_true]
  constructor
  · rintro ⟨hne, hall⟩
    have hne' : s ≠ [] := by simpa using hne
    apply exists_numeral_of_digits hne'
    intro c hc
    obtain ⟨d, hd⟩ := Option.isSome_iff_exists.mp (hall c hc)
    exact ⟨d, (digitBelow?_eq_some_iff hbase).mp hd⟩
  · rintro ⟨n, h⟩
    refine ⟨by simpa using h.ne_nil, fun c hc => ?_⟩
    obtain ⟨d, hd⟩ := h.exists_digit hc
    exact Option.isSome_iff_exists.mpr ⟨d, (digitBelow?_eq_some_iff hbase).mpr hd⟩

/-- In a numeral there is nothing that the looser reader could pass over. -/
theorem Numeral.looseNumber?_eq (h : Numeral base s n) (hbase : base ≤ 16) :
    looseNumber? base s = some n := by
  have hplus : '+' ∉ s := h.not_mem hbase rfl
  have hunderscore : '_' ∉ s := h.not_mem hbase rfl
  have hdrop : dropPlus s = s := by
    unfold dropPlus
    split
    · rfl
    · exact absurd List.mem_cons_self hplus
    · rfl
  have hfilter : s.filter (· != '_') = s := by
    apply List.filter_eq_self.mpr
    intro c hc
    apply bne_iff_ne.mpr
    rintro rfl
    exact hunderscore hc
  have hfirst : s.head? ≠ some '_' := fun hhead => hunderscore (List.mem_of_head? hhead)
  have hread := (number?_eq_some_iff hbase).mpr h
  rw [number?, if_neg (by simpa using h.ne_nil)] at hread
  rw [looseNumber?, hdrop, hfilter, hread, if_neg]
  simp [h.ne_nil, hfirst]

theorem Numeral.solid (h : Numeral base s n) (hbase : base ≤ 16) : Solid s := by
  intro c hc
  obtain ⟨d, hd⟩ := h.exists_digit hc
  exact (hd.mono hbase).isBlank

theorem numeral_row {ds : List Nat} (hne : ds ≠ []) (hds : ∀ d ∈ ds, d < base) :
    Numeral base (row ds) (positional base ds) := by
  induction ds using List.reverseRecOn with
  | nil => exact absurd rfl hne
  | append_singleton ds d ih =>
    obtain ⟨hupper, hlast⟩ := List.forall_mem_append.mp hds
    have hd := isDigit_digitChar (hlast d List.mem_cons_self)
    by_cases hsingle : ds = []
    · rw [hsingle, List.nil_append, positional_singleton]
      exact .digit hd
    · rw [row_append, positional_append_singleton]
      exact .more (ih hsingle hupper) hd

theorem numeral_toDigits (hbase : 1 < base) (n : Nat) : Numeral base (Nat.toDigits base n) n := by
  obtain ⟨ds, hne, hds, hvalue, hrow⟩ := exists_row_eq_toDigits base hbase n
  rw [hrow]
  exact hvalue ▸ numeral_row hne hds

theorem number?_toDigits (hpos : 1 < base) (hbase : base ≤ 16) (n : Nat) :
    number? base (Nat.toDigits base n) = some n :=
  (number?_eq_some_iff hbase).mpr (numeral_toDigits hpos n)

end Reading

section Zeros

variable {base : Nat} {s : List Char} {n : Nat}

theorem numeral_zeros (hpos : 0 < base) (count : Nat) : Numeral base (zeros (count + 1)) 0 := by
  have hzero : IsDigit base '0' 0 := isDigit_digitChar hpos
  induction count with
  | zero => exact .digit hzero
  | succ count ih =>
    have hmore := Numeral.more ih hzero
    rw [Nat.zero_mul, zeros, ← List.replicate_succ'] at hmore
    exact hmore

/-- Zeros in front do not change the number. -/
theorem Numeral.zeros_append (h : Numeral base s n) (hpos : 0 < base) (count : Nat) :
    Numeral base (zeros count ++ s) n := by
  induction h with
  | digit hd =>
    cases count with
    | zero => exact .digit hd
    | succ count =>
      have hmore := Numeral.more (numeral_zeros hpos count) hd
      rwa [Nat.zero_mul, Nat.zero_add] at hmore
  | more hs hd ih =>
    rw [← List.append_assoc]
    exact .more ih hd

end Zeros

section Shortest

variable {base : Nat} {s : List Char} {n : Nat}

theorem shortest_toDigits (hbase : 1 < base) (n : Nat) : Shortest base (Nat.toDigits base n) where
  digits := by
    intro c hc
    obtain ⟨ds, -, hds, -, hrow⟩ := exists_row_eq_toDigits base hbase n
    rw [hrow] at hc
    obtain ⟨d, hd, rfl⟩ := List.mem_map.mp hc
    exact ⟨d, hds d hd, rfl⟩
  ne_nil := Nat.toDigits_ne_nil
  first := by
    intro hfirst
    obtain ⟨s, hs⟩ := List.head?_eq_some_iff.mp hfirst
    rw [hs, (toDigits_head hbase hs).2]

theorem Shortest.exists_numeral (h : Shortest base s) : ∃ n, Numeral base s n := by
  apply exists_numeral_of_digits h.ne_nil
  intro c hc
  obtain ⟨d, hd, rfl⟩ := h.digits c hc
  exact ⟨d, isDigit_digitChar hd⟩

/-- The one numeral that is the shortest. -/
theorem Numeral.eq_toDigits (hs : Numeral base s n) (hpos : 1 < base) (hbase : base ≤ 16)
    (hshort : Shortest base s) : s = Nat.toDigits base n := by
  have hlower {c : Char} {d : Nat} (hd : IsDigit base c d) (hc : ∃ e < base, c = Nat.digitChar e) :
      c = Nat.digitChar d := by
    obtain ⟨e, he, rfl⟩ := hc
    rw [(hd.mono hbase).unique ((isDigit_digitChar he).mono hbase)]
  induction hs with
  | digit hd =>
    rw [Nat.toDigits_of_lt_base hd.1, hlower hd (hshort.digits _ List.mem_cons_self)]
  | @more s n c d hs hd ih =>
    obtain ⟨hdigits, hc⟩ := List.forall_mem_append.mp hshort.digits
    -- The digits in front of the last one are the shortest for what they write, which is not 0.
    have hfirst : s.head? ≠ some '0' := by
      intro hzero
      have halone := hshort.first (by rw [List.head?_append, hzero, Option.some_or])
      have hlength := congrArg List.length halone
      simp [hs.ne_nil] at hlength
    have hupper : s = Nat.toDigits base n :=
      ih ⟨hdigits, hs.ne_nil, fun hzero => absurd hzero hfirst⟩
    have hn : n ≠ 0 := by
      rintro rfl
      exact hfirst (by rw [hupper, Nat.toDigits_zero]; rfl)
    have hle : base ≤ n * base + d := by
      have hone : base ≤ n * base := Nat.le_mul_of_pos_left base (Nat.pos_of_ne_zero hn)
      omega
    have hquotient : (n * base + d) / base = n := by
      rw [Nat.mul_comm, Nat.mul_add_div (by omega), Nat.div_eq_of_lt hd.1, Nat.add_zero]
    have hrest : (n * base + d) % base = d := by
      rw [Nat.mul_comm, Nat.mul_add_mod, Nat.mod_eq_of_lt hd.1]
    rw [Nat.toDigits_of_base_le hpos hle, hquotient, hrest, ← hupper,
      hlower hd (hc c List.mem_cons_self)]

end Shortest

end ClaimTree.Text
