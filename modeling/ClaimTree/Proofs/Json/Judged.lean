import ClaimTree.Proofs.Json.Pass

namespace ClaimTree.Json

variable {α : Type}

/-- In front of a boundary, the text `w` is refused with this fault. -/
structure Refuses (value : Reader α) (w : List Char) (f : Fault) : Prop where
  starts : ∃ c s, skipSpace w = c :: s ∧ c ≠ ']'
  refuses : ∀ s rest, skipSpace s = skipSpace (w ++ rest) → Boundary rest → value s = .error f

/-- In front of a boundary, the text `w` is read as a value, or refused with such a fault. -/
def Judged (among : Fault → Prop) (value : Reader α) (w : List Char) : Prop :=
  (∃ a, Reads value w a) ∨ ∃ f, among f ∧ Refuses value w f

theorem Reads.not_refuses {value : Reader α} {w : List Char} {a : α} (h : Reads value w a)
    (f : Fault) : ¬Refuses value w f := by
  intro hrefuse
  obtain ⟨left, -, hok⟩ := h.reads w [] (by rw [List.append_nil]) boundary_nil
  rw [hrefuse.refuses w [] (by rw [List.append_nil]) boundary_nil] at hok
  cases hok

theorem Refuses.ne_nil {value : Reader α} {w : List Char} {f : Fault} (h : Refuses value w f) :
    w ≠ [] := by
  rintro rfl
  obtain ⟨c, s, hw, -⟩ := h.starts
  cases hw

theorem Refuses.readDocument {value : Reader α} {text : String} {f : Fault}
    (h : Refuses value text.toList f) : readDocument value text = .error f :=
  bind_eq_error_iff.mpr (.inl (h.refuses text.toList [] (by rw [List.append_nil]) boundary_nil))

theorem Refuses.surrounded {value : Reader α} {before w after : List Char} {f : Fault}
    (h : Refuses value w f) (hbefore : Spaces before) (hafter : Spaces after) :
    Refuses value (before ++ w ++ after) f := by
  obtain ⟨c, s, hw, hc⟩ := h.starts
  have hstart : skipSpace (before ++ w ++ after) = c :: (s ++ after) := by
    rw [List.append_assoc, hbefore.skipSpace_append, skipSpace_append hw]
  refine ⟨⟨c, s ++ after, hstart, hc⟩, fun t rest ht hrest => ?_⟩
  refine h.refuses t (after ++ rest) ?_ (hrest.spaces_append hafter)
  rw [ht, skipSpace_append hstart, skipSpace_append hw, List.append_assoc]

theorem Judged.element {among : Fault → Prop} {value : Reader α} {v p : List Char}
    (h : Judged among value v) (hp : ElementText v p) : Judged among value p := by
  obtain ⟨before, after, hbefore, hafter, rfl⟩ := hp
  rcases h with ⟨a, hread⟩ | ⟨f, hf, hrefuse⟩
  · exact .inl ⟨a, hread.surrounded hbefore hafter⟩
  · exact .inr ⟨f, hf, hrefuse.surrounded hbefore hafter⟩

theorem Judged.imp {among among' : Fault → Prop} {value : Reader α} {w : List Char}
    (h : Judged among value w) (himp : ∀ f, among f → among' f) : Judged among' value w :=
  h.imp_right fun ⟨f, hf, hrefuse⟩ => ⟨f, himp f hf, hrefuse⟩

section Spoiled

/-- The number is too large for a double. -/
def TooLarge (w : List Char) : Prop :=
  ∃ n, (∀ rest, Boundary rest → readNumeral (w ++ rest) = .ok (n, rest)) ∧ n.toDouble? = none

/-- The inside of a string that stands for no characters, because of half a surrogate pair. -/
def Unpaired (s : List Char) : Prop := Body s ∧ ∀ text, ¬Spelled s text

/-- A well-formed value with something in it that is malformed for a field: a number too large for a
double, half of a surrogate pair in a string, or surplus elements of an array that stands for an
object with `width` fields or more. -/
inductive Spoiled (width : Nat) : List Char → Prop
  | tooLarge {w : List Char} : NumberText w → TooLarge w → Spoiled width w
  | unpaired {s : List Char} : Unpaired s → Spoiled width ('"' :: (s ++ ['"']))
  | surplus {vs : List (List Char)} {w : List Char} : ArrayText vs w → width < vs.length →
    Spoiled width w
  | element {vs : List (List Char)} {v w : List Char} : ArrayText vs w → v ∈ vs →
    Spoiled width v → Spoiled width w
  | key {ms : List (List Char × List Char)} {m : List Char × List Char} {w : List Char} :
    ObjectText ms w → m ∈ ms → Unpaired m.1 → Spoiled width w
  | member {ms : List (List Char × List Char)} {m : List Char × List Char} {w : List Char} :
    ObjectText ms w → m ∈ ms → Spoiled width m.2 → Spoiled width w

/-- The faults of a well-formed value: it is of the wrong kind, or something in it is malformed. -/
inductive Found (width : Nat) (w : List Char) : Fault → Prop
  | mistyped : Found width w .mistyped
  | malformed : Spoiled width w → Found width w .malformed

variable {width : Nat}

theorem Found.imp {v w : List Char} (h : Spoiled width v → Spoiled width w) {f : Fault}
    (hf : Found width v f) : Found width w f := by
  cases hf with
  | mistyped => exact .mistyped
  | malformed hv => exact .malformed (h hv)

theorem Unpaired.of_malformed {s : List Char} (hs : Body s)
    (h : ∀ rest, readQuoted (s ++ '"' :: rest) = .error .malformed) : Unpaired s := by
  refine ⟨hs, fun text htext => ?_⟩
  have hread := htext.readQuoted []
  rw [h] at hread
  cases hread

theorem Found.of_count {w : List Char} (hw : NumberText w) {n : Numeral}
    (hread : ∀ rest, Boundary rest → readNumeral (w ++ rest) = .ok (n, rest)) {f : Fault}
    (hcount : n.count = .error f) : Found width w f := by
  unfold Numeral.count at hcount
  split at hcount
  · cases hcount
  split at hcount
  · next hlarge =>
    obtain rfl := Except.error.inj hcount
    exact .malformed (.tooLarge hw ⟨n, hread, Option.isNone_iff_eq_none.mp hlarge⟩)
  · obtain rfl := Except.error.inj hcount
    exact .mistyped

end Spoiled

/-- What is known of a well-formed value from its first character. -/
structure Kind (c : Char) (w : List Char) : Prop where
  number : startsNumeral c = true → NumberText w
  null : c = 'n' → w = ['n', 'u', 'l', 'l']
  string : c = '"' → ∃ s, Body s ∧ w = '"' :: (s ++ ['"'])
  array : c = '[' → ∃ vs, (∀ v ∈ vs, WellFormed v) ∧ ArrayText vs w
  object : c = '{' → ∃ ms : List (List Char × List Char),
    (∀ m ∈ ms, Body m.1 ∧ WellFormed m.2) ∧ ObjectText ms w

theorem WellFormed.kind {c : Char} {u : List Char} (h : WellFormed (c :: u)) : Kind c (c :: u) := by
  -- The first character is that of every text of the constructor, and settles the other fields.
  generalize hw : c :: u = w at h
  cases h with
  | literal hliteral =>
    rcases mem_literals.mp hliteral with rfl | rfl | rfl
    all_goals obtain ⟨rfl, rfl⟩ := List.cons.inj hw
    · exact ⟨nofun, fun _ => rfl, nofun, nofun, nofun⟩
    · exact ⟨nofun, nofun, nofun, nofun, nofun⟩
    · exact ⟨nofun, nofun, nofun, nofun, nofun⟩
  | number h =>
    obtain ⟨d, s, rfl, hd⟩ := h.starts
    obtain ⟨rfl, rfl⟩ := List.cons.inj hw
    exact ⟨fun _ => h, fun hc => absurd hc (startsNumeral_ne hd),
      fun hc => absurd hc (startsNumeral_ne hd), fun hc => absurd hc (startsNumeral_ne hd),
      fun hc => absurd hc (startsNumeral_ne hd)⟩
  | @string s hs =>
    obtain ⟨rfl, rfl⟩ := List.cons.inj hw
    exact ⟨nofun, nofun, fun _ => ⟨s, hs, rfl⟩, nofun, nofun⟩
  | @array vs _ hvs h =>
    have htext := h
    obtain ⟨parts, after, -, -, rfl⟩ := h
    obtain ⟨rfl, rfl⟩ := List.cons.inj hw
    exact ⟨nofun, nofun, nofun, fun _ => ⟨vs, hvs, htext⟩, nofun⟩
  | @object ms _ hkeys hvs h =>
    have htext := h
    obtain ⟨parts, after, -, -, rfl⟩ := h
    obtain ⟨rfl, rfl⟩ := List.cons.inj hw
    exact ⟨nofun, nofun, nofun, nofun,
      fun _ => ⟨ms, fun m hm => ⟨hkeys m hm, hvs m hm⟩, htext⟩⟩

theorem wrongKind_numeral {c : Char} (hc : startsNumeral c = true) (s : List Char) :
    (∀ n rest a, readNumeral (c :: s) = .ok (n, rest) → n.count = .ok a →
      wrongKind (c :: s) = .mistyped) ∧
    ∀ n rest f, readNumeral (c :: s) = .ok (n, rest) → n.count = .error f →
      wrongKind (c :: s) = f := by
  unfold wrongKind
  split
  · next h => cases h
  · next h => exact absurd (List.cons.inj h).1 (startsNumeral_ne hc)
  · next h => exact absurd (List.cons.inj h).1 (startsNumeral_ne hc)
  · next h => exact absurd (List.cons.inj h).1 (startsNumeral_ne hc)
  · next h => exact absurd (List.cons.inj h).1 (startsNumeral_ne hc)
  · next h => exact absurd (List.cons.inj h).1 (startsNumeral_ne hc)
  · next h => exact absurd (List.cons.inj h).1 (startsNumeral_ne hc)
  · next h =>
    obtain ⟨rfl, rfl⟩ := List.cons.inj h
    rw [if_pos hc]
    constructor
    · intro n rest a hread hcount
      simp only [hread, bind, Except.bind, hcount]
    · intro n rest f hread hcount
      simp only [hread, bind, Except.bind, hcount]

/-- A value of another kind than the wanted one is refused, the same whatever stands behind it. -/
theorem WellFormed.exists_wrongKind {w : List Char} (h : WellFormed w) (width : Nat) :
    ∃ f, Found width w f ∧ ∀ rest, Boundary rest → wrongKind (w ++ rest) = f := by
  cases h with
  | literal hw =>
    refine ⟨.mistyped, .mistyped, fun rest _ => ?_⟩
    rcases mem_literals.mp hw with rfl | rfl | rfl <;> rfl
  | number hw =>
    obtain ⟨n, hread⟩ := hw.exists_read
    obtain ⟨c, u, rfl, hc⟩ := hw.starts
    have hkind (rest : List Char) := wrongKind_numeral hc (u ++ rest)
    cases hcount : n.count with
    | ok a =>
      refine ⟨.mistyped, .mistyped, fun rest hrest => ?_⟩
      exact (hkind rest).1 n rest a (hread rest hrest) hcount
    | error f =>
      exact ⟨f, .of_count hw hread hcount, fun rest hrest =>
        (hkind rest).2 n rest f (hread rest hrest) hcount⟩
  | @string s hs =>
    have htext (rest : List Char) : '"' :: (s ++ ['"']) ++ rest = '"' :: (s ++ '"' :: rest) := by
      simp
    rcases hs.settles with ⟨text, hread⟩ | hread
    · refine ⟨.mistyped, .mistyped, fun rest _ => ?_⟩
      rw [htext]
      simp only [wrongKind, hread]
    · refine ⟨.malformed, .malformed (.unpaired (.of_malformed hs hread)), fun rest _ => ?_⟩
      rw [htext]
      simp only [wrongKind, hread]
  | array _ hw =>
    obtain ⟨parts, after, -, -, rfl⟩ := hw
    exact ⟨.mistyped, .mistyped, fun rest _ => rfl⟩
  | object _ _ hw =>
    obtain ⟨parts, after, -, -, rfl⟩ := hw
    exact ⟨.mistyped, .mistyped, fun rest _ => rfl⟩

/-- A reader that refuses what begins like the value `w` judges it by its kind. -/
theorem WellFormed.judged_of_wrongKind {width : Nat} {value : Reader α} {c : Char} {u : List Char}
    (h : WellFormed (c :: u))
    (hvalue : ∀ s t, skipSpace s = c :: t → value s = .error (wrongKind (c :: t))) :
    Judged (Found width (c :: u)) value (c :: u) := by
  obtain ⟨f, hf, hkind⟩ := h.exists_wrongKind width
  obtain ⟨d, v, hw, hspace, hclosing⟩ := h.starts
  obtain ⟨rfl, rfl⟩ := List.cons.inj hw
  refine .inr ⟨f, hf, ⟨c, u, skipSpace_cons hspace _, hclosing⟩, fun s rest hs hrest => ?_⟩
  rw [List.cons_append, skipSpace_cons hspace] at hs
  rw [hvalue s _ hs, ← List.cons_append, hkind rest hrest]

theorem Reads.of_quoted {s text : List Char}
    (h : ∀ rest, readQuoted (s ++ '"' :: rest) = .ok (text, rest)) :
    Reads readString ('"' :: (s ++ ['"'])) (String.ofList text) := by
  refine of_first (skipSpace_cons (c := '"') rfl _) (by decide) fun t rest ht _ => ?_
  refine Yields.of_eq ?_
  unfold readString
  rw [ht, List.append_assoc]
  exact bind_eq_ok_iff.mpr ⟨_, h rest, rfl⟩

theorem Refuses.of_first {value : Reader α} {c : Char} {u : List Char} {f : Fault}
    (hspace : isSpace c = false) (hc : c ≠ ']')
    (h : ∀ s rest, skipSpace s = c :: (u ++ rest) → Boundary rest → value s = .error f) :
    Refuses value (c :: u) f where
  starts := ⟨c, u, skipSpace_cons hspace u, hc⟩
  refuses s rest hs hrest := h s rest (hs.trans (skipSpace_cons hspace _)) hrest

namespace WellFormed

variable {width : Nat} {w : List Char}

theorem judged_string (h : WellFormed w) : Judged (Found width w) readString w := by
  obtain ⟨c, u, rfl, hspace, -⟩ := h.starts
  by_cases hc : c = '"'
  · obtain ⟨s, hs, hw⟩ := h.kind.string hc
    rw [hw]
    rcases hs.settles with ⟨text, hread⟩ | hread
    · exact .inl ⟨_, .of_quoted hread⟩
    · refine .inr ⟨.malformed, .malformed (.unpaired (.of_malformed hs hread)),
        .of_first rfl (by decide) fun t rest ht _ => ?_⟩
      unfold readString
      rw [ht, List.append_assoc]
      exact bind_eq_error_iff.mpr (.inl (hread rest))
  · refine h.judged_of_wrongKind fun s t hs => ?_
    unfold readString
    rw [hs]
    split
    · next heq => exact absurd (List.cons.inj heq).1 hc
    · rfl

theorem judged_count (h : WellFormed w) : Judged (Found width w) readCount w := by
  obtain ⟨c, u, rfl, hspace, hclosing⟩ := h.starts
  by_cases hc : startsNumeral c = true
  · have hnumber := h.kind.number hc
    obtain ⟨n, hread⟩ := hnumber.exists_read
    have hcount {s rest : List Char} (hs : skipSpace s = c :: (u ++ rest)) (hrest : Boundary rest) :
        readCount s = (do return (← n.count, rest)) := by
      unfold readCount
      rw [hs]
      change (if startsNumeral c = true then _ else _) = _
      rw [if_pos hc, ← List.cons_append, hread rest hrest]
      rfl
    cases hn : n.count with
    | ok a =>
      refine .inl ⟨a, .of_first (skipSpace_cons hspace u) hclosing fun t rest ht hrest => ?_⟩
      refine Yields.of_eq ?_
      rw [hcount ht hrest, hn]
      rfl
    | error f =>
      refine .inr ⟨f, .of_count hnumber hread hn,
        .of_first hspace hclosing fun t rest ht hrest => ?_⟩
      rw [hcount ht hrest, hn]
      rfl
  · refine h.judged_of_wrongKind fun s t hs => ?_
    unfold readCount
    rw [hs]
    exact if_neg hc

theorem judged_option {value : Reader α} (h : WellFormed w)
    (hvalue : Judged (Found width w) value w) : Judged (Found width w) (readOption value) w := by
  obtain ⟨c, u, rfl, hspace, hclosing⟩ := h.starts
  by_cases hc : c = 'n'
  · rw [h.kind.null hc]
    exact .inl ⟨none, .absent value⟩
  · have hstart (s : List Char) : skipSpace (c :: u) ≠ 'n' :: s := by
      rw [skipSpace_cons hspace]
      exact fun heq => hc (List.cons.inj heq).1
    rcases hvalue with ⟨a, hread⟩ | ⟨f, hf, hrefuse⟩
    · exact .inl ⟨some a, hread.present hstart⟩
    · refine .inr ⟨f, hf, .of_first hspace hclosing fun t rest ht hrest => ?_⟩
      have hinner := hrefuse.refuses (c :: (u ++ rest)) rest rfl hrest
      unfold readOption
      rw [ht]
      split
      · next heq => exact absurd (List.cons.inj heq).1 hc
      · exact bind_eq_error_iff.mpr (.inl hinner)

end WellFormed

section Elements

variable {element : Reader α}

/-- The elements in front are read, and the first one that is not decides. -/
theorem readElements_refused {ws ws' : List (List Char)} {as : List α}
    (h : List.Forall₂ (Reads element) ws as) {w : List Char} {f : Fault}
    (hw : Refuses element w f) {after : List Char} (hafter : Spaces after) (rest : List Char)
    {steps : List Char} (hsteps : ws.length < steps.length) {isFirst : Bool} {s : List Char}
    (hs : skipSpace s =
      skipSpace (separated isFirst (ws ++ w :: ws') ++ (after ++ ']' :: rest))) :
    readElements element steps isFirst s = .error f := by
  induction h generalizing steps isFirst s with
  | nil =>
    obtain ⟨mark, steps, rfl⟩ := List.exists_cons_of_length_pos hsteps
    obtain ⟨c, u, hstart, hc⟩ := hw.starts
    have hpart := skipSpace_append hstart (separated false ws' ++ (after ++ ']' :: rest))
    rw [List.nil_append, separated, List.append_assoc, List.append_assoc] at hs
    have hfirst := skipSpace_of_start hpart
    refine bind_eq_error_iff.mpr (.inr ⟨_, nextElement_part hs hpart hc, ?_⟩)
    refine bind_eq_error_iff.mpr (.inl ?_)
    exact hw.refuses _ _ hfirst (boundary_separated ws' hafter (.inl rfl) rest)
  | @cons v a ws as hv hws ih =>
    obtain ⟨mark, steps, rfl⟩ := List.exists_cons_of_length_pos (Nat.zero_lt_of_lt hsteps)
    obtain ⟨c, u, hstart, hc⟩ := hv.starts
    have hpart := skipSpace_append hstart
      (separated false (ws ++ w :: ws') ++ (after ++ ']' :: rest))
    have hfirst := skipSpace_of_start hpart
    rw [List.cons_append, separated, List.append_assoc, List.append_assoc] at hs
    obtain ⟨t, ht, hread⟩ := hv.reads _ _ hfirst
      (boundary_separated (ws ++ w :: ws') hafter (.inl rfl) rest)
    refine bind_eq_error_iff.mpr (.inr ⟨_, nextElement_part hs hpart hc, ?_⟩)
    refine bind_eq_error_iff.mpr (.inr ⟨_, hread, ?_⟩)
    exact bind_eq_error_iff.mpr (.inl (ih (Nat.lt_of_succ_lt_succ hsteps) ht))

/-- All elements are read, or there is a first one that is refused. -/
theorem exists_first_refused {among : Fault → Prop} {ws : List (List Char)}
    (h : ∀ w ∈ ws, Judged among element w) :
    (∃ as, List.Forall₂ (Reads element) ws as) ∨
      ∃ front w back as f, ws = front ++ w :: back ∧ List.Forall₂ (Reads element) front as ∧
        among f ∧ Refuses element w f := by
  induction ws with
  | nil => exact .inl ⟨[], .nil⟩
  | cons w ws ih =>
    obtain ⟨hw, hws⟩ := List.forall_mem_cons.mp h
    rcases hw with ⟨a, hread⟩ | ⟨f, hf, hrefuse⟩
    · rcases ih hws with ⟨as, has⟩ | ⟨front, v, back, as, f, rfl, has, hf, hrefuse⟩
      · exact .inl ⟨a :: as, .cons hread has⟩
      · exact .inr ⟨w :: front, v, back, a :: as, f, rfl, .cons hread has, hf, hrefuse⟩
    · exact .inr ⟨[], w, ws, [], f, rfl, .nil, hf, hrefuse⟩

theorem Refuses.list {ws ws' : List (List Char)} {as : List α}
    (h : List.Forall₂ (Reads element) ws as) {w : List Char} {f : Fault}
    (hw : Refuses element w f) {after : List Char} (hafter : Spaces after) :
    Refuses (readList element)
      ('[' :: (separated true (ws ++ w :: ws') ++ (after ++ [']']))) f := by
  refine of_first rfl (by decide) fun s rest hs _ => ?_
  unfold readList
  rw [hs, separated_closed]
  refine readElements_refused h hw hafter rest ?_ rfl
  have hne : (ws ++ w :: ws').head? ≠ some [] := by
    cases h with
    | nil => exact fun hnil => hw.ne_nil (Option.some.inj hnil)
    | cons hv _ => exact fun hnil => hv.ne_nil (Option.some.inj hnil)
  exact Nat.lt_of_le_of_lt (List.sublist_append_left ws _).length_le
    (length_lt_separated hne after rest ']')

theorem Reads.array {vs : List (List Char)} {as : List α} {w : List Char} (hw : ArrayText vs w)
    (h : List.Forall₂ (Reads element) vs as) : Reads (readList element) w as := by
  obtain ⟨parts, after, hparts, hafter, rfl⟩ := hw
  refine .list ?_ hafter
  clear hafter
  induction h generalizing parts with
  | nil =>
    cases hparts
    exact .nil
  | cons hv _ ih =>
    cases hparts with
    | cons hp hparts =>
      obtain ⟨before, behind, hbefore, hbehind, rfl⟩ := hp
      exact .cons (hv.surrounded hbefore hbehind) (ih _ hparts)

/-- An array is of the wrong kind when one of its elements is and all others can be read. -/
theorem Refuses.array {vs : List (List Char)} {w : List Char} (hw : ArrayText vs w)
    (h : ∀ v ∈ vs, (∃ a, Reads element v a) ∨ Refuses element v .mistyped)
    (hsome : ∃ v ∈ vs, Refuses element v .mistyped) :
    Refuses (readList element) w .mistyped := by
  obtain ⟨parts, after, hparts, hafter, rfl⟩ := hw
  have hjudged : ∀ p ∈ parts, Judged (· = .mistyped) element p := by
    intro p hp
    obtain ⟨v, hv, helement⟩ := exists_of_forall₂_right hparts hp
    have hvalue : Judged (· = .mistyped) element v :=
      (h v hv).imp_right fun hrefuse => ⟨.mistyped, rfl, hrefuse⟩
    exact hvalue.element helement
  rcases exists_first_refused hjudged with ⟨as, has⟩ |
    ⟨front, p, back, as, f, rfl, has, hf, hrefuse⟩
  · obtain ⟨v, hv, hrefuse⟩ := hsome
    obtain ⟨p, hp, before, behind, hbefore, hbehind, rfl⟩ := exists_of_forall₂_left hparts hv
    obtain ⟨a, -, hread⟩ := exists_of_forall₂_left has hp
    exact absurd (hrefuse.surrounded hbefore hbehind) (hread.not_refuses _)
  · exact hf ▸ .list has hrefuse hafter

theorem WellFormed.judged_list {width : Nat} {w : List Char} (h : WellFormed w)
    (helement : ∀ v, WellFormed v → Judged (Found width v) element v) :
    Judged (Found width w) (readList element) w := by
  obtain ⟨c, u, rfl, hspace, hclosing⟩ := h.starts
  by_cases hc : c = '['
  · obtain ⟨vs, hvs, hw⟩ := h.kind.array hc
    have htext := hw
    obtain ⟨parts, after, hparts, hafter, hw⟩ := hw
    have hjudged : ∀ p ∈ parts, Judged (Found width (c :: u)) element p := by
      intro p hp
      obtain ⟨v, hv, hvp⟩ := exists_of_forall₂_right hparts hp
      exact ((helement v (hvs v hv)).element hvp).imp fun f => .imp (.element htext hv)
    rw [hw] at hjudged ⊢
    rcases exists_first_refused hjudged with ⟨as, has⟩ |
      ⟨front, p, back, as, f, rfl, has, hf, hrefuse⟩
    · exact .inl ⟨as, .list has hafter⟩
    · exact .inr ⟨f, hf, .list has hrefuse hafter⟩
  · refine h.judged_of_wrongKind fun s t hs => ?_
    unfold readList
    rw [hs]
    split
    · next heq => exact absurd (List.cons.inj heq).1 hc
    · rfl

end Elements

end ClaimTree.Json
