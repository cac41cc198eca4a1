import ClaimTree.Json.Shape
import ClaimTree.Proofs.Json.Reads

namespace ClaimTree.Json

/-- What stands in front of a part: behind another one a comma. -/
def comma (isFirst : Bool) : List Char := if isFirst then [] else [',']

/-- The parts one after the other, the first of them in front of all or behind others. -/
def separated : (isFirst : Bool) → List (List Char) → List Char
  | _, [] => []
  | isFirst, w :: ws => comma isFirst ++ (w ++ separated false ws)

theorem boundary_separated (ws : List (List Char)) {after : List Char} (hafter : Spaces after)
    {mark : Char} (hmark : mark = ']' ∨ mark = '}') (rest : List Char) :
    Boundary (separated false ws ++ (after ++ mark :: rest)) := by
  cases ws with
  | nil =>
    change Boundary (after ++ mark :: rest)
    exact (boundary_cons (.inr hmark) rest).spaces_append hafter
  | cons w ws => exact boundary_cons (.inl rfl) _

theorem length_le_separated (ws : List (List Char)) : ws.length ≤ (separated false ws).length := by
  induction ws with
  | nil => exact Nat.le_refl 0
  | cons w ws ih =>
    simp only [separated, comma, Bool.false_eq_true, if_false, List.length_append, List.length_cons,
      List.length_nil]
    omega

theorem separated_closed (ws : List (List Char)) (after rest : List Char) (mark : Char) :
    separated true ws ++ (after ++ [mark]) ++ rest =
      separated true ws ++ (after ++ mark :: rest) := by
  simp

/-- The text between the brackets has room for all parts, and for the bracket at its end. -/
theorem length_lt_separated {ws : List (List Char)} (hne : ws.head? ≠ some [])
    (after rest : List Char) (mark : Char) :
    ws.length < (separated true ws ++ (after ++ mark :: rest)).length := by
  cases ws with
  | nil =>
    simp only [separated, List.nil_append, List.length_append, List.length_cons, List.length_nil]
    omega
  | cons w ws =>
    have hw := List.length_pos_iff.mpr fun hw : w = [] => hne (hw ▸ rfl)
    have hws := length_le_separated ws
    simp only [separated, comma, if_true, List.nil_append, List.length_append, List.length_cons]
    omega

section Elements

variable {α : Type} {element : Reader α}

theorem nextElement_closed {s rest : List Char} (hs : skipSpace s = ']' :: rest)
    (isFirst : Bool) : nextElement isFirst s = .ok (.closed rest) := by
  unfold nextElement
  rw [hs]
  rfl

theorem nextElement_part {isFirst : Bool} {s t u : List Char} {c : Char}
    (hs : skipSpace s = skipSpace (comma isFirst ++ t)) (ht : skipSpace t = c :: u) (hc : c ≠ ']') :
    nextElement isFirst s = .ok (.part (c :: u)) := by
  unfold nextElement
  cases isFirst with
  | true =>
    rw [hs.trans ht]
    simp only [if_true]
  | false =>
    have hcomma : skipSpace s = ',' :: t := hs
    rw [hcomma]
    split
    · next hnil => cases hnil
    · next hclosed => exact absurd (List.cons.inj hclosed).1 (by decide)
    · next hpart =>
      obtain ⟨rfl, rfl⟩ := List.cons.inj hpart
      rw [if_neg Bool.false_ne_true, if_pos rfl, ht]
      split
      · next hnil => cases hnil
      · next hclosed => exact absurd (List.cons.inj hclosed).1 hc
      · rfl

/-- Every element is read up to the comma or the bracket behind it. -/
theorem readElements_separated {ws : List (List Char)} {as : List α}
    (h : List.Forall₂ (Reads element) ws as) {after : List Char} (hafter : Spaces after)
    (rest : List Char) {steps : List Char} (hsteps : ws.length < steps.length) {isFirst : Bool}
    {s : List Char}
    (hs : skipSpace s = skipSpace (separated isFirst ws ++ (after ++ ']' :: rest))) :
    readElements element steps isFirst s = .ok (as, rest) := by
  induction h generalizing steps isFirst s with
  | nil =>
    obtain ⟨mark, steps, rfl⟩ := List.exists_cons_of_length_pos hsteps
    have hclosed : skipSpace s = ']' :: rest := hs.trans (hafter.skipSpace_append _)
    exact bind_eq_ok_iff.mpr ⟨_, nextElement_closed hclosed isFirst, rfl⟩
  | @cons w a ws as hw hws ih =>
    obtain ⟨mark, steps, rfl⟩ := List.exists_cons_of_length_pos (Nat.zero_lt_of_lt hsteps)
    obtain ⟨c, u, hstart, hc⟩ := hw.starts
    have hpart := skipSpace_append hstart (separated false ws ++ (after ++ ']' :: rest))
    rw [separated, List.append_assoc, List.append_assoc] at hs
    obtain ⟨t, ht, hread⟩ := hw.reads _ _ (skipSpace_of_start hpart)
      (boundary_separated ws hafter (.inl rfl) rest)
    refine bind_eq_ok_iff.mpr ⟨_, nextElement_part hs hpart hc, ?_⟩
    refine bind_eq_ok_iff.mpr ⟨_, hread, ?_⟩
    exact bind_eq_ok_iff.mpr ⟨_, ih (Nat.lt_of_succ_lt_succ hsteps) ht, rfl⟩

theorem Reads.list {ws : List (List Char)} {as : List α}
    (h : List.Forall₂ (Reads element) ws as) {after : List Char} (hafter : Spaces after) :
    Reads (readList element) ('[' :: (separated true ws ++ (after ++ [']']))) as := by
  refine Reads.of_first (skipSpace_cons (c := '[') rfl _) (by decide) fun t rest ht _ => ?_
  refine Yields.of_eq ?_
  have hne : ws.head? ≠ some [] := by
    cases h with
    | nil => exact nofun
    | cons hw _ => exact fun hnil => hw.ne_nil (Option.some.inj hnil)
  unfold readList
  rw [ht, separated_closed]
  exact readElements_separated h hafter rest (length_lt_separated hne after rest ']') rfl

end Elements

end ClaimTree.Json
