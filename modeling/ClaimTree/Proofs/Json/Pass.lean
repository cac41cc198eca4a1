import Mathlib.Data.List.Forall2
import ClaimTree.Proofs.Json.Grammar

namespace ClaimTree.Json

/-- Passes on from behind a value, with these brackets open around it. -/
def resume (steps : List Char) (outer : List Bracket) (s : List Char) :
    Except Fault (List Char) := do
  match ← passClosing outer s with
  | ([], s) => return s
  | (outer, s) => passParts steps outer s

/-- In front of a boundary, the value written as `w` is passed over. -/
def Passes (w : List Char) : Prop :=
  ∀ steps outer s rest, w.length ≤ steps.length → skipSpace s = skipSpace (w ++ rest) →
    Boundary rest → ∃ steps' left, steps.length ≤ steps'.length + w.length ∧
      skipSpace left = skipSpace rest ∧ passParts steps outer s = resume steps' outer left

theorem Passes.scalar {w : List Char} {c : Char} {u : List Char} (hw : w = c :: u)
    (hc : isSpace c = false) (harray : c ≠ '[') (hobject : c ≠ '{')
    (hpass : ∀ rest, Boundary rest → passScalar (w ++ rest) = .ok rest) : Passes w := by
  subst hw
  intro steps outer s rest hsteps hs hrest
  rw [List.cons_append, skipSpace_cons hc] at hs
  obtain ⟨mark, steps, rfl⟩ := List.exists_cons_of_length_pos (Nat.lt_of_lt_of_le (by simp) hsteps)
  refine ⟨steps, rest, ?_, rfl, ?_⟩
  · simp only [List.length_cons]
    omega
  · have hpart : passPart outer s = passClosing outer rest := by
      unfold passPart
      rw [hs]
      split
      · next h => exact absurd (List.cons.inj h).1 harray
      · next h => exact absurd (List.cons.inj h).1 hobject
      · change (passScalar (c :: u ++ rest) >>= _) = _
        rw [hpass rest hrest]
        rfl
    rw [passParts, hpart]
    rfl

/-- In front of a boundary, a part between brackets is passed over with the key in front of it. -/
structure PassesPart (b : Bracket) (p : List Char) : Prop where
  starts : ∃ c u, skipSpace p = c :: u ∧ c ≠ b.closing
  passes : ∀ s rest, skipSpace s = skipSpace (p ++ rest) → Boundary rest →
    ∃ t, b.passKey s = .ok t ∧ ∀ steps outer, p.length ≤ steps.length →
      ∃ steps' left, steps.length ≤ steps'.length + p.length ∧ skipSpace left = skipSpace rest ∧
        passParts steps outer t = resume steps' outer left

section Parts

variable {b : Bracket} {parts : List (List Char)} {after rest : List Char} {outer : List Bracket}

theorem closing_cases (b : Bracket) : b.closing = ']' ∨ b.closing = '}' := by
  cases b
  · exact .inl rfl
  · exact .inr rfl

theorem resume_closing {steps s : List Char} (hs : skipSpace s = b.closing :: rest) :
    resume steps (b :: outer) s = resume steps outer rest := by
  have hclosing : passClosing (b :: outer) s = passClosing outer rest := by
    rw [passClosing, hs]
    exact if_pos rfl
  rw [resume, hclosing]
  rfl

/-- Behind a part, the others are passed over up to the bracket that closes them. -/
theorem resume_separated (outer : List Bracket) (h : ∀ p ∈ parts, PassesPart b p)
    (hafter : Spaces after) {steps s : List Char}
    (hsteps : (separated false parts).length ≤ steps.length)
    (hs : skipSpace s = skipSpace (separated false parts ++ (after ++ b.closing :: rest))) :
    ∃ steps', steps.length ≤ steps'.length + (separated false parts).length ∧
      resume steps (b :: outer) s = resume steps' outer rest := by
  have hmark : isSpace b.closing = false := by cases b <;> rfl
  -- A part uses up steps and leaves white space behind, so neither the steps nor `s` is fixed.
  induction parts generalizing steps s with
  | nil =>
    refine ⟨steps, Nat.le_add_right _ _, resume_closing ?_⟩
    rw [hs, separated, List.nil_append, hafter.skipSpace_append, skipSpace_cons hmark]
  | cons p parts ih =>
    obtain ⟨hp, hparts⟩ := List.forall_mem_cons.mp h
    have hcomma : skipSpace s =
        ',' :: (p ++ (separated false parts ++ (after ++ b.closing :: rest))) := by
      rw [hs, separated, List.append_assoc, List.append_assoc]
      exact skipSpace_cons rfl _
    obtain ⟨t, hkey, hpass⟩ := hp.passes _ _ rfl
      (boundary_separated parts hafter (closing_cases b) rest)
    have hclosing : passClosing (b :: outer) s = .ok (b :: outer, t) := by
      rw [passClosing, hcomma]
      change (if ',' = b.closing then _ else if ',' = ',' then _ else _) = _
      rw [if_neg (by cases b <;> decide), if_pos rfl, hkey]
      rfl
    simp only [separated, comma, List.length_append, Bool.false_eq_true, if_false,
      List.length_singleton] at hsteps ⊢
    obtain ⟨steps₁, left, hlength, hleft, hparts₁⟩ := hpass steps (b :: outer) (by omega)
    have hsteps₁ : (separated false parts).length ≤ steps₁.length := by omega
    obtain ⟨steps₂, hlength₂, hrest⟩ := ih hparts hsteps₁ hleft
    refine ⟨steps₂, by omega, ?_⟩
    rw [resume, hclosing, ← hrest, ← hparts₁]
    rfl

/-- A bracket is opened in front of the first part and closed behind the last one. -/
theorem Passes.bracketed {opening : Char} (hmark : isSpace opening = false)
    (hopening : ∀ outer s t, skipSpace s = opening :: t → passPart outer s = passOpening b outer t)
    (h : ∀ p ∈ parts, PassesPart b p) (hafter : Spaces after) :
    Passes (opening :: (separated true parts ++ (after ++ [b.closing]))) := by
  intro steps outer s rest hsteps hs hrest
  have hclosing : isSpace b.closing = false := by cases b <;> rfl
  rw [List.cons_append, skipSpace_cons hmark, separated_closed] at hs
  obtain ⟨mark, steps, rfl⟩ := List.exists_cons_of_length_pos (Nat.lt_of_lt_of_le (by simp) hsteps)
  cases parts with
  | nil =>
    have hempty : passPart outer s = passClosing outer rest := by
      rw [hopening outer s _ hs, passOpening, separated, List.nil_append,
        hafter.skipSpace_append, skipSpace_cons hclosing]
      exact if_pos rfl
    refine ⟨steps, rest, ?_, rfl, ?_⟩
    · simp only [List.length_cons]
      omega
    · rw [passParts, hempty]
      rfl
  | cons p parts =>
    obtain ⟨hp, hparts⟩ := List.forall_mem_cons.mp h
    obtain ⟨c, u, hstart, hc⟩ := hp.starts
    have hpart := skipSpace_append hstart (separated false parts ++ (after ++ b.closing :: rest))
    obtain ⟨t, hkey, hpass⟩ := hp.passes _ _ (skipSpace_of_start hpart)
      (boundary_separated parts hafter (closing_cases b) rest)
    have hopened : passPart outer s = .ok (b :: outer, t) := by
      rw [hopening outer s _ hs, passOpening, separated, comma, if_pos rfl, List.nil_append,
        List.append_assoc, hpart]
      change (if c = b.closing then _ else _) = _
      rw [if_neg hc, hkey]
      rfl
    simp only [separated, comma, if_true, List.nil_append, List.length_append,
      List.length_cons] at hsteps ⊢
    obtain ⟨steps₁, left, hlength, hleft, hread⟩ := hpass steps (b :: outer) (by omega)
    have hsteps₁ : (separated false parts).length ≤ steps₁.length := by omega
    obtain ⟨steps₂, hlength₂, hrest⟩ := resume_separated outer hparts hafter hsteps₁ hleft
    refine ⟨steps₂, rest, by omega, rfl, ?_⟩
    rw [passParts, hopened, ← hrest, ← hread]
    rfl

end Parts

theorem ElementText.passesPart {v p : List Char} (hp : ElementText v p) (hv : WellFormed v)
    (hpass : Passes v) : PassesPart .array p := by
  obtain ⟨before, after, hbefore, hafter, rfl⟩ := hp
  obtain ⟨c, u, rfl, hc, hclosing⟩ := hv.starts
  constructor
  · refine ⟨c, u ++ after, ?_, hclosing⟩
    rw [List.append_assoc, hbefore.skipSpace_append]
    exact skipSpace_cons hc _
  · intro s rest hs hrest
    refine ⟨s, rfl, fun steps outer hsteps => ?_⟩
    rw [List.append_assoc, List.append_assoc, hbefore.skipSpace_append] at hs
    simp only [List.length_append] at hsteps ⊢
    obtain ⟨steps', left, hlength, hleft, hread⟩ :=
      hpass steps outer s (after ++ rest) (by omega) hs (hrest.spaces_append hafter)
    exact ⟨steps', left, by omega, hleft.trans (hafter.skipSpace_append rest), hread⟩

theorem MemberText.passesPart {m : List Char × List Char} {p : List Char} (hp : MemberText m p)
    (hkey : Body m.1) (hv : WellFormed m.2) (hpass : Passes m.2) : PassesPart .object p := by
  obtain ⟨lead, gap, v, hlead, hgap, helement, rfl⟩ := hp
  obtain ⟨-, hvalue⟩ := helement.passesPart hv hpass
  have hskip (s : List Char) : skipSpace (lead ++ s) = skipSpace s := hlead.skipSpace_append s
  constructor
  · exact ⟨'"', _, (hskip _).trans (skipSpace_cons rfl _), by decide⟩
  · intro s rest hs hrest
    simp only [List.append_assoc, List.cons_append] at hs
    rw [hskip, skipSpace_cons rfl] at hs
    obtain ⟨t, ht, hpass⟩ := hvalue (v ++ rest) rest rfl hrest
    obtain rfl := Except.ok.inj ht
    refine ⟨v ++ rest, ?_, fun steps outer hsteps => ?_⟩
    · change (expect ['"'] (skipSpace s) >>= _) = _
      rw [hs]
      change (passQuoted (m.1 ++ '"' :: (gap ++ ':' :: (v ++ rest))) >>= _) = _
      rw [hkey.passQuoted]
      change expect [':'] (skipSpace (gap ++ ':' :: (v ++ rest))) = _
      rw [hgap.skipSpace_append]
      rfl
    · simp only [List.length_append, List.length_cons] at hsteps ⊢
      obtain ⟨steps', left, hlength, hleft, hread⟩ := hpass steps outer (by omega)
      exact ⟨steps', left, by omega, hleft, hread⟩

theorem passScalar_numeral {c : Char} (hc : startsNumeral c = true) {n : Numeral}
    {s rest : List Char} (hread : readNumeral (c :: s) = .ok (n, rest)) :
    passScalar (c :: s) = .ok rest := by
  unfold passScalar
  split
  · next h => cases h
  · next h => exact absurd (List.cons.inj h).1 (startsNumeral_ne hc)
  · next h => exact absurd (List.cons.inj h).1 (startsNumeral_ne hc)
  · next h => exact absurd (List.cons.inj h).1 (startsNumeral_ne hc)
  · next h => exact absurd (List.cons.inj h).1 (startsNumeral_ne hc)
  · next h =>
    obtain ⟨rfl, -⟩ := List.cons.inj h
    rw [if_pos hc, hread]

theorem exists_of_forall₂_right {α β : Type} {R : α → β → Prop} {as : List α} {bs : List β}
    (h : List.Forall₂ R as bs) {b : β} (hb : b ∈ bs) : ∃ a ∈ as, R a b := by
  induction h with
  | nil => cases hb
  | @cons a b' as bs hab _ ih =>
    rcases List.mem_cons.mp hb with rfl | hb
    · exact ⟨a, List.mem_cons_self, hab⟩
    · obtain ⟨a', ha', hab'⟩ := ih hb
      exact ⟨a', List.mem_cons_of_mem a ha', hab'⟩

theorem exists_of_forall₂_left {α β : Type} {R : α → β → Prop} {as : List α} {bs : List β}
    (h : List.Forall₂ R as bs) {a : α} (ha : a ∈ as) : ∃ b ∈ bs, R a b :=
  exists_of_forall₂_right (List.Forall₂.flip (R := flip R) h) ha

theorem WellFormed.passes {w : List Char} (h : WellFormed w) : Passes w := by
  induction h with
  | literal hw =>
    rcases mem_literals.mp hw with rfl | rfl | rfl
    · exact .scalar rfl rfl (by decide) (by decide) fun _ _ => rfl
    · exact .scalar rfl rfl (by decide) (by decide) fun _ _ => rfl
    · exact .scalar rfl rfl (by decide) (by decide) fun _ _ => rfl
  | number hw =>
    obtain ⟨n, hread⟩ := hw.exists_read
    obtain ⟨c, u, rfl, hc⟩ := hw.starts
    refine .scalar rfl (isSpace_of_startsNumeral hc) (startsNumeral_ne hc) (startsNumeral_ne hc)
      fun rest hrest => ?_
    exact passScalar_numeral hc (hread rest hrest)
  | string hs =>
    refine .scalar rfl rfl (by decide) (by decide) fun rest _ => ?_
    rw [List.cons_append, List.append_assoc]
    exact hs.passQuoted rest
  | array hvs hw ih =>
    obtain ⟨parts, after, hparts, hafter, rfl⟩ := hw
    refine .bracketed (b := .array) rfl (fun outer s t hs => ?_) (fun p hp => ?_) hafter
    · rw [passPart, hs]
      rfl
    · obtain ⟨v, hv, helement⟩ := exists_of_forall₂_right hparts hp
      exact helement.passesPart (hvs v hv) (ih v hv)
  | object hkeys hvs hw ih =>
    obtain ⟨parts, after, hparts, hafter, rfl⟩ := hw
    refine .bracketed (b := .object) rfl (fun outer s t hs => ?_) (fun p hp => ?_) hafter
    · rw [passPart, hs]
      rfl
    · obtain ⟨m, hm, hmember⟩ := exists_of_forall₂_right hparts hp
      exact hmember.passesPart (hkeys m hm) (hvs m hm) (ih m hm)

/-- In front of a boundary, a well-formed value of any kind and depth is passed over. -/
theorem WellFormed.exists_passValue {w s rest : List Char} (h : WellFormed w)
    (hs : skipSpace s = skipSpace (w ++ rest)) (hrest : Boundary rest) :
    ∃ left, skipSpace left = skipSpace rest ∧ passValue s = .ok left := by
  have hlength : w.length ≤ s.length := by
    have hle : (skipSpace s).length ≤ s.length := (List.dropWhile_sublist isSpace).length_le
    rw [hs, h.skipSpace_append, List.length_append] at hle
    omega
  obtain ⟨steps', left, -, hleft, hpass⟩ := h.passes s [] s rest hlength hs hrest
  refine ⟨left, hleft, ?_⟩
  rw [passValue, hpass]
  rfl

end ClaimTree.Json
