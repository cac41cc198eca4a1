import ClaimTree.Proofs.Json.Parts
import ClaimTree.Proofs.Text.Numeral

namespace ClaimTree.Json

/-- The inside of a string, and the characters that it stands for. -/
inductive Spelled : List Char → List Char → Prop
  | nil : Spelled [] []
  | plain {c : Char} {s text : List Char} : c ≠ '"' → c ≠ '\\' → 0x20 ≤ c.toNat →
    Spelled s text → Spelled (c :: s) (c :: text)
  | letter {c d : Char} {s text : List Char} : escaped? c = some d → Spelled s text →
    Spelled ('\\' :: c :: s) (d :: text)
  | unit {a b c d : Char} {n : Nat} {s text : List Char} : Text.Numeral 16 [a, b, c, d] n →
    isTrailing n = false → isLeading n = false → Spelled s text →
    Spelled ('\\' :: 'u' :: a :: b :: c :: d :: s) (Char.ofNat n :: text)
  | pair {a b c d e f g h : Char} {n m : Nat} {s text : List Char} :
    Text.Numeral 16 [a, b, c, d] n → Text.Numeral 16 [e, f, g, h] m →
    isLeading n = true → isTrailing m = true → Spelled s text →
    Spelled ('\\' :: 'u' :: a :: b :: c :: d :: '\\' :: 'u' :: e :: f :: g :: h :: s)
      (paired n m :: text)

/-- The inside of a string in which half of a surrogate pair may stand alone. -/
inductive Body : List Char → Prop
  | nil : Body []
  | plain {c : Char} {s : List Char} : c ≠ '"' → c ≠ '\\' → 0x20 ≤ c.toNat → Body s →
    Body (c :: s)
  | letter {c : Char} {s : List Char} : (escaped? c).isSome = true → Body s →
    Body ('\\' :: c :: s)
  | unit {a b c d : Char} {n : Nat} {s : List Char} : Text.Numeral 16 [a, b, c, d] n → Body s →
    Body ('\\' :: 'u' :: a :: b :: c :: d :: s)

section Quoted

variable {a b c d : Char} {n : Nat}

theorem unit?_eq_ok_iff : unit? a b c d = .ok n ↔ Text.Numeral 16 [a, b, c, d] n := by
  rw [← Text.number?_eq_some_iff (by decide), unit?]
  cases Text.number? 16 [a, b, c, d] <;> simp

theorem unit?_of_numeral (h : Text.Numeral 16 [a, b, c, d] n) : unit? a b c d = .ok n :=
  unit?_eq_ok_iff.mpr h

theorem readQuoted_plain (hquote : c ≠ '"') (hbackslash : c ≠ '\\') (hcontrol : 0x20 ≤ c.toNat)
    (s : List Char) : readQuoted (c :: s) = (do
      let (text, s) ← readQuoted s
      return (c :: text, s)) := by
  rw [readQuoted, if_neg (Nat.not_lt.mpr hcontrol)]
  all_goals intros; simp_all

theorem readQuoted_letter (h : escaped? c = some d) (s : List Char) :
    readQuoted ('\\' :: c :: s) = (do
      let (text, s) ← readQuoted s
      return (d :: text, s)) := by
  unfold escaped? at h
  split at h
  all_goals cases h
  all_goals rfl

theorem passQuoted_letter (h : (escaped? c).isSome = true) (s : List Char) :
    passQuoted ('\\' :: c :: s) = passQuoted s := by
  obtain ⟨d, hd⟩ := Option.isSome_iff_exists.mp h
  unfold escaped? at hd
  split at hd
  all_goals cases hd
  all_goals rfl

theorem not_trailing_of_leading (h : isLeading n = true) : isTrailing n = false := by
  simp only [isLeading, isTrailing, Bool.and_eq_true, decide_eq_true_eq, Bool.and_eq_false_iff,
    decide_eq_false_iff_not] at h ⊢
  omega

theorem readQuoted_pair {e f g h : Char} {m : Nat} (hn : Text.Numeral 16 [a, b, c, d] n)
    (hm : Text.Numeral 16 [e, f, g, h] m) (hleading : isLeading n = true)
    (htrailing : isTrailing m = true) (s : List Char) :
    readQuoted ('\\' :: 'u' :: a :: b :: c :: d :: '\\' :: 'u' :: e :: f :: g :: h :: s) = (do
      let (text, s) ← readQuoted s
      return (paired n m :: text, s)) := by
  have hfirst := not_trailing_of_leading hleading
  rw [readQuoted, unit?_of_numeral hn]
  change (if isTrailing n = true then _ else if isLeading n = true then _ else _) = _
  rw [hfirst, if_neg Bool.false_ne_true, if_pos hleading]
  change (unit? e f g h >>= _) = _
  rw [unit?_of_numeral hm]
  change (if isTrailing m = true then _ else _) = _
  rw [if_pos htrailing]

/-- The first half of a pair is refused when the text does not go on with an escape by number. -/
theorem readQuoted_unpaired {s : List Char} (hn : Text.Numeral 16 [a, b, c, d] n)
    (hleading : isLeading n = true) (hnil : s ≠ []) (hend : s ≠ ['\\'])
    (hunit : ∀ t, s ≠ '\\' :: 'u' :: t) :
    readQuoted ('\\' :: 'u' :: a :: b :: c :: d :: s) = .error .malformed := by
  rw [readQuoted, unit?_of_numeral hn]
  change (if isTrailing n = true then _ else if isLeading n = true then _ else _) = _
  rw [not_trailing_of_leading hleading, if_neg Bool.false_ne_true, if_pos hleading]
  split
  · exact absurd rfl hnil
  · exact absurd rfl hend
  · exact absurd rfl (hunit _)
  · exact absurd rfl (hunit _)
  · rfl

/-- Whatever stands behind the string with this inside, it is read as a text or is malformed. -/
def Settles (s : List Char) : Prop :=
  (∃ text, ∀ rest, readQuoted (s ++ '"' :: rest) = .ok (text, rest)) ∨
    ∀ rest, readQuoted (s ++ '"' :: rest) = .error .malformed

theorem Settles.step {s : List Char} (h : Settles s) (front : List Char)
    (hfront : ∀ t, readQuoted (front ++ t) = (do
      let (text, t) ← readQuoted t
      return (c :: text, t))) : Settles (front ++ s) := by
  rcases h with ⟨text, hread⟩ | hread
  · refine .inl ⟨c :: text, fun rest => ?_⟩
    rw [List.append_assoc, hfront, hread]
    rfl
  · refine .inr fun rest => ?_
    rw [List.append_assoc, hfront, hread]
    rfl

/-- Behind the first half of a pair nothing but the second half is in order. -/
theorem Settles.leading {s : List Char} (hn : Text.Numeral 16 [a, b, c, d] n) (hs : Body s)
    (hleading : isLeading n = true)
    (hpair : ∀ e f g h t, s = '\\' :: 'u' :: e :: f :: g :: h :: t → Settles t) :
    Settles ('\\' :: 'u' :: a :: b :: c :: d :: s) := by
  cases hs with
  | nil =>
    exact .inr fun rest => readQuoted_unpaired hn hleading (by simp) (by simp) (by simp)
  | @plain e t hquote hbackslash hcontrol ht =>
    refine .inr fun rest => readQuoted_unpaired hn hleading (by simp) ?_ fun u => ?_
    · simp [hbackslash]
    · simp [hbackslash]
  | @letter e t he ht =>
    have hu : e ≠ 'u' := by
      rintro rfl
      cases he
    exact .inr fun rest => readQuoted_unpaired hn hleading (by simp) (by simp) (by simp [hu])
  | @unit e f g h m t hm ht =>
    cases htrailing : isTrailing m with
    | true =>
      exact (hpair e f g h t rfl).step ['\\', 'u', a, b, c, d, '\\', 'u', e, f, g, h]
        (readQuoted_pair hn hm hleading htrailing)
    | false =>
      refine .inr fun rest => ?_
      change readQuoted ('\\' :: 'u' :: a :: b :: c :: d :: '\\' :: 'u' :: e :: f :: g :: h ::
        (t ++ '"' :: rest)) = _
      rw [readQuoted, unit?_of_numeral hn]
      change (if isTrailing n = true then _ else if isLeading n = true then _ else _) = _
      rw [not_trailing_of_leading hleading, if_neg Bool.false_ne_true, if_pos hleading]
      change (unit? e f g h >>= _) = _
      rw [unit?_of_numeral hm]
      change (if isTrailing m = true then _ else _) = _
      rw [htrailing, if_neg Bool.false_ne_true]

/-- Of a well-formed string only half of a surrogate pair makes trouble. -/
theorem Body.settles {s : List Char} (h : Body s) : Settles s := by
  -- A pair takes two escapes at once, so what is known of the inside is kept for the one behind.
  suffices hboth : Settles s ∧
      ∀ a b c d t, s = '\\' :: 'u' :: a :: b :: c :: d :: t → Settles t from hboth.1
  induction h with
  | nil => exact ⟨.inl ⟨[], fun _ => rfl⟩, nofun⟩
  | @plain c s hquote hbackslash hcontrol _ ih =>
    refine ⟨ih.1.step [c] (readQuoted_plain hquote hbackslash hcontrol), ?_⟩
    rintro a b c' d t heq
    exact absurd (List.cons.inj heq).1 hbackslash
  | @letter c s hc _ ih =>
    obtain ⟨d, hd⟩ := Option.isSome_iff_exists.mp hc
    refine ⟨ih.1.step ['\\', c] (readQuoted_letter hd), ?_⟩
    rintro a b c' d t heq
    obtain ⟨rfl, -⟩ := List.cons.inj (List.cons.inj heq).2
    cases hc
  | @unit a b c d n s hn hs ih =>
    constructor
    · cases hleading : isLeading n with
      | true => exact .leading hn hs hleading ih.2
      | false =>
        cases htrailing : isTrailing n with
        | false =>
          exact ih.1.step ['\\', 'u', a, b, c, d]
            (readQuoted_unit (unit?_of_numeral hn) htrailing hleading)
        | true =>
          refine .inr fun rest => ?_
          change readQuoted ('\\' :: 'u' :: a :: b :: c :: d :: (s ++ '"' :: rest)) = _
          rw [readQuoted, unit?_of_numeral hn]
          change (if isTrailing n = true then _ else _) = _
          rw [if_pos htrailing]
    · rintro a b c d t heq
      obtain ⟨-, -, -, -, rfl⟩ : _ ∧ _ ∧ _ ∧ _ ∧ s = t := by simpa using heq
      exact ih.1

/-- A string is read as the characters that its inside stands for. -/
theorem Spelled.readQuoted {s text : List Char} (h : Spelled s text) (rest : List Char) :
    readQuoted (s ++ '"' :: rest) = .ok (text, rest) := by
  induction h with
  | nil => rfl
  | @plain c s text hquote hbackslash hcontrol _ ih =>
    rw [List.cons_append, readQuoted_plain hquote hbackslash hcontrol, ih]
    rfl
  | @letter c d s text hc _ ih =>
    rw [List.cons_append, List.cons_append, readQuoted_letter hc, ih]
    rfl
  | @unit a b c d n s text hn htrailing hleading _ ih =>
    simp only [List.cons_append]
    rw [readQuoted_unit (unit?_of_numeral hn) htrailing hleading, ih]
    rfl
  | @pair a b c d e f g h n m s text hn hm hleading htrailing _ ih =>
    simp only [List.cons_append]
    rw [readQuoted_pair hn hm hleading htrailing, ih]
    rfl

theorem Body.passQuoted {s : List Char} (h : Body s) (rest : List Char) :
    passQuoted (s ++ '"' :: rest) = .ok rest := by
  induction h with
  | nil => rfl
  | @plain c s hquote hbackslash hcontrol _ ih =>
    rw [List.cons_append, Json.passQuoted, if_neg (Nat.not_lt.mpr hcontrol), ih]
    all_goals intros; simp_all
  | letter hc _ ih =>
    rw [List.cons_append, List.cons_append, passQuoted_letter hc, ih]
  | @unit a b c d n s hn _ ih =>
    simp only [List.cons_append]
    rw [Json.passQuoted, unit?_of_numeral hn]
    exact ih

end Quoted

def Digits (ds : List Char) : Prop := ds ≠ [] ∧ ∀ c ∈ ds, Text.isDecimal c = true

inductive FractionText : List Char → Prop
  | absent : FractionText []
  | present {ds : List Char} : Digits ds → FractionText ('.' :: ds)

inductive ExponentText : List Char → Prop
  | absent : ExponentText []
  | present {mark : Char} {sign ds : List Char} : mark = 'e' ∨ mark = 'E' →
    sign = [] ∨ sign = ['+'] ∨ sign = ['-'] → Digits ds → ExponentText (mark :: (sign ++ ds))

/-- A number: of its digits the first is zero only where it stands alone. -/
inductive NumberText : List Char → Prop
  | mk {sign whole fraction exponent : List Char} : sign = [] ∨ sign = ['-'] → Digits whole →
    (whole.head? = some '0' → whole = ['0']) → FractionText fraction → ExponentText exponent →
    NumberText (sign ++ (whole ++ (fraction ++ exponent)))

section Number

variable {rest : List Char}

theorem ExponentText.endsDigits {s : List Char} (h : ExponentText s) (hrest : Boundary rest) :
    EndsDigits (s ++ rest) ∧ ∀ t, s ++ rest ≠ '.' :: t := by
  cases h with
  | absent => exact ⟨hrest.endsDigits, fun t ht => (hrest.not_numeral ht).2.1 rfl⟩
  | present hmark _ _ =>
    constructor
    · rintro c hc
      obtain rfl := Option.some.inj hc
      rcases hmark with rfl | rfl <;> rfl
    · rintro t ht
      rcases hmark with rfl | rfl <;> cases ht

theorem FractionText.endsDigits {s t : List Char} (h : FractionText s) (ht : EndsDigits t) :
    EndsDigits (s ++ t) := by
  cases h with
  | absent => exact ht
  | present _ =>
    rintro c hc
    obtain rfl := Option.some.inj hc
    rfl

theorem FractionText.exists_read {s : List Char} (h : FractionText s) :
    ∃ fraction, ∀ t, EndsDigits t → (∀ u, t ≠ '.' :: u) →
      readFraction (s ++ t) = .ok (fraction, t) := by
  cases h with
  | absent =>
    refine ⟨none, fun t _ hpoint => ?_⟩
    change readFraction t = _
    unfold readFraction
    split
    · exact absurd rfl (hpoint _)
    · rfl
  | @present ds hds =>
    refine ⟨some ds, fun t ht _ => ?_⟩
    exact bind_eq_ok_iff.mpr ⟨_, readDigits_append hds.1 hds.2 ht, rfl⟩

theorem Digits.append_ne_cons {ds : List Char} (hds : Digits ds) {c : Char}
    (hc : Text.isDecimal c = false) (rest t : List Char) : ds ++ rest ≠ c :: t := by
  obtain ⟨d, others, rfl⟩ := List.exists_cons_of_ne_nil hds.1
  intro heq
  have hd : Text.isDecimal d = true := hds.2 d List.mem_cons_self
  rw [(List.cons.inj heq).1, hc] at hd
  cases hd

theorem readSign_digits {ds : List Char} (hds : Digits ds) (rest : List Char) :
    readSign (ds ++ rest) = (false, ds ++ rest) := by
  unfold readSign
  split
  · next heq => exact absurd heq (hds.append_ne_cons rfl rest _)
  · next heq => exact absurd heq (hds.append_ne_cons rfl rest _)
  · rfl

theorem ExponentText.exists_read {s : List Char} (h : ExponentText s) :
    ∃ exponent, ∀ rest, Boundary rest → readExponent (s ++ rest) = .ok (exponent, rest) := by
  cases h with
  | absent => exact ⟨none, fun rest hrest => readExponent_boundary hrest⟩
  | @present mark sign ds hmark hsign hds =>
    have hread (rest : List Char) (hrest : Boundary rest) :
        readDigits (ds ++ rest) = .ok (ds, rest) :=
      readDigits_append hds.1 hds.2 hrest.endsDigits
    obtain ⟨negative, hnegative⟩ : ∃ negative, ∀ rest,
        readSign (sign ++ (ds ++ rest)) = (negative, ds ++ rest) := by
      rcases hsign with rfl | rfl | rfl
      · exact ⟨false, readSign_digits hds⟩
      · exact ⟨false, fun _ => rfl⟩
      · exact ⟨true, fun _ => rfl⟩
    refine ⟨some (negative, ds), fun rest hrest => ?_⟩
    rw [List.cons_append, List.append_assoc, readExponent, if_pos hmark, hnegative]
    exact bind_eq_ok_iff.mpr ⟨_, hread rest hrest, rfl⟩

/-- A number is read up to the boundary behind it, and what it is read as depends on it alone. -/
theorem NumberText.exists_read {w : List Char} (h : NumberText w) :
    ∃ n, ∀ rest, Boundary rest → readNumeral (w ++ rest) = .ok (n, rest) := by
  obtain @⟨sign, whole, fraction, exponent, hsign, hwhole, hzero, hfraction, hexponent⟩ := h
  obtain ⟨f, hf⟩ := hfraction.exists_read
  obtain ⟨e, he⟩ := hexponent.exists_read
  have hread (rest : List Char) (hrest : Boundary rest) :
      readWhole (whole ++ (fraction ++ (exponent ++ rest))) =
        .ok (whole, fraction ++ (exponent ++ rest)) ∧
      readFraction (fraction ++ (exponent ++ rest)) = .ok (f, exponent ++ rest) := by
    obtain ⟨hends, hpoint⟩ := hexponent.endsDigits hrest
    exact ⟨readWhole_append hwhole.1 hwhole.2 hzero (hfraction.endsDigits hends),
      hf _ hends hpoint⟩
  rcases hsign with rfl | rfl
  · refine ⟨⟨false, whole, f, e⟩, fun rest hrest => ?_⟩
    obtain ⟨hw, hf⟩ := hread rest hrest
    simp only [List.nil_append, List.append_assoc]
    rw [readNumeral_unsigned (hwhole.append_ne_cons rfl _)]
    refine bind_eq_ok_iff.mpr ⟨_, hw, ?_⟩
    refine bind_eq_ok_iff.mpr ⟨_, hf, ?_⟩
    exact bind_eq_ok_iff.mpr ⟨_, he rest hrest, rfl⟩
  · refine ⟨⟨true, whole, f, e⟩, fun rest hrest => ?_⟩
    obtain ⟨hw, hf⟩ := hread rest hrest
    simp only [List.append_assoc]
    refine bind_eq_ok_iff.mpr ⟨_, hw, ?_⟩
    refine bind_eq_ok_iff.mpr ⟨_, hf, ?_⟩
    exact bind_eq_ok_iff.mpr ⟨_, he rest hrest, rfl⟩

theorem NumberText.starts {w : List Char} (h : NumberText w) :
    ∃ c s, w = c :: s ∧ startsNumeral c = true := by
  obtain @⟨sign, whole, fraction, exponent, hsign, hwhole, -, -, -⟩ := h
  rcases hsign with rfl | rfl
  · obtain ⟨d, others, rfl⟩ := List.exists_cons_of_ne_nil hwhole.1
    have hd : Text.isDecimal d = true := hwhole.2 d List.mem_cons_self
    exact ⟨d, _, rfl, by rw [startsNumeral, hd, Bool.or_true]⟩
  · exact ⟨'-', _, rfl, rfl⟩

end Number

/-- The text of an element with white space around the value. -/
def ElementText (v w : List Char) : Prop :=
  ∃ before after, Spaces before ∧ Spaces after ∧ w = before ++ v ++ after

/-- The text of a member, given the inside of its key and the text of its value. -/
def MemberText (m : List Char × List Char) (w : List Char) : Prop :=
  ∃ lead gap v, Spaces lead ∧ Spaces gap ∧ ElementText m.2 v ∧
    w = lead ++ ('"' :: (m.1 ++ '"' :: (gap ++ ':' :: v)))

def ArrayText (vs : List (List Char)) (w : List Char) : Prop :=
  ∃ parts after, List.Forall₂ ElementText vs parts ∧ Spaces after ∧
    w = '[' :: (separated true parts ++ (after ++ [']']))

def ObjectText (ms : List (List Char × List Char)) (w : List Char) : Prop :=
  ∃ parts after, List.Forall₂ MemberText ms parts ∧ Spaces after ∧
    w = '{' :: (separated true parts ++ (after ++ ['}']))

def literals : List (List Char) :=
  [['n', 'u', 'l', 'l'], ['t', 'r', 'u', 'e'], ['f', 'a', 'l', 's', 'e']]

inductive WellFormed : List Char → Prop
  | literal {w : List Char} : w ∈ literals → WellFormed w
  | number {w : List Char} : NumberText w → WellFormed w
  | string {s : List Char} : Body s → WellFormed ('"' :: (s ++ ['"']))
  | array {vs : List (List Char)} {w : List Char} : (∀ v ∈ vs, WellFormed v) → ArrayText vs w →
    WellFormed w
  | object {ms : List (List Char × List Char)} {w : List Char} : (∀ m ∈ ms, Body m.1) →
    (∀ m ∈ ms, WellFormed m.2) → ObjectText ms w → WellFormed w

theorem mem_literals {w : List Char} : w ∈ literals ↔
    w = ['n', 'u', 'l', 'l'] ∨ w = ['t', 'r', 'u', 'e'] ∨ w = ['f', 'a', 'l', 's', 'e'] := by
  simp [literals]

theorem startsNumeral_ne {c d : Char} (hc : startsNumeral c = true)
    (hd : startsNumeral d = false := by rfl) : c ≠ d := by
  rintro rfl
  rw [hc] at hd
  cases hd

theorem isSpace_of_startsNumeral {c : Char} (hc : startsNumeral c = true) : isSpace c = false := by
  simp only [isSpace, Bool.or_eq_false_iff, beq_eq_false_iff_ne]
  exact ⟨⟨⟨startsNumeral_ne hc, startsNumeral_ne hc⟩, startsNumeral_ne hc⟩, startsNumeral_ne hc⟩

theorem WellFormed.starts {w : List Char} (h : WellFormed w) :
    ∃ c s, w = c :: s ∧ isSpace c = false ∧ c ≠ ']' := by
  cases h with
  | literal hw =>
    rcases mem_literals.mp hw with rfl | rfl | rfl
    · exact ⟨'n', _, rfl, rfl, by decide⟩
    · exact ⟨'t', _, rfl, rfl, by decide⟩
    · exact ⟨'f', _, rfl, rfl, by decide⟩
  | number h =>
    obtain ⟨c, s, rfl, hc⟩ := h.starts
    exact ⟨c, s, rfl, isSpace_of_startsNumeral hc, startsNumeral_ne hc⟩
  | string _ => exact ⟨'"', _, rfl, rfl, by decide⟩
  | array _ hw =>
    obtain ⟨parts, after, -, -, rfl⟩ := hw
    exact ⟨'[', _, rfl, rfl, by decide⟩
  | object _ _ hw =>
    obtain ⟨parts, after, -, -, rfl⟩ := hw
    exact ⟨'{', _, rfl, rfl, by decide⟩

theorem WellFormed.skipSpace_append {w : List Char} (h : WellFormed w) (rest : List Char) :
    skipSpace (w ++ rest) = w ++ rest := by
  obtain ⟨c, s, rfl, hc, -⟩ := h.starts
  exact skipSpace_cons hc _

end ClaimTree.Json
