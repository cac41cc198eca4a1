import ClaimTree.Text.Split

namespace ClaimTree.Text

/-- The library cuts lists in the same way. -/
theorem split_eq_splitOn (separator : Char) (s : List Char) :
    split separator s = s.splitOn separator := by
  induction s with
  | nil => rfl
  | cons c s ih =>
    rw [split, List.splitOn_cons_eq_if_modifyHead, ih]
    by_cases hc : c = separator
    · rw [if_pos hc, if_pos (beq_iff_eq.mpr hc)]
    · rw [if_neg hc, if_neg (mt beq_iff_eq.mp hc)]
      cases hpieces : s.splitOn separator with
      | nil => exact absurd hpieces (List.splitOn_ne_nil separator s)
      | cons piece pieces => rfl

theorem not_mem_of_mem_split {separator : Char} {s piece : List Char}
    (hpiece : piece ∈ split separator s) : separator ∉ piece := by
  induction s generalizing piece with
  | nil =>
    obtain rfl := List.mem_singleton.mp hpiece
    exact List.not_mem_nil
  | cons c s ih =>
    rw [split_eq_splitOn, List.splitOn_cons_eq_if_modifyHead, ← split_eq_splitOn] at hpiece
    split at hpiece
    · rcases List.mem_cons.mp hpiece with rfl | hmem
      · exact List.not_mem_nil
      · exact ih hmem
    · next hc =>
      cases hpieces : split separator s with
      | nil => rw [hpieces] at hpiece; cases hpiece
      | cons first others =>
        rw [hpieces] at hpiece ih
        rcases List.mem_cons.mp hpiece with rfl | hmem
        · have hfirst := ih List.mem_cons_self
          intro hmem
          rcases List.mem_cons.mp hmem with rfl | hrest
          · exact hc (beq_self_eq_true _)
          · exact hfirst hrest
        · exact ih (List.mem_cons_of_mem _ hmem)

theorem split_append_cons {separator : Char} {piece : List Char} (hpiece : separator ∉ piece)
    (rest : List Char) :
    split separator (piece ++ separator :: rest) = piece :: split separator rest := by
  rw [split_eq_splitOn, split_eq_splitOn, List.splitOn_append_cons_self_of_not_mem hpiece]

theorem split_of_not_mem {separator : Char} {piece : List Char} (hpiece : separator ∉ piece) :
    split separator piece = [piece] := by
  rw [split_eq_splitOn, List.splitOn_eq_singleton hpiece]

theorem split_flatMap {ls : List (List Char)} (hls : ∀ l ∈ ls, '\n' ∉ l) :
    split '\n' (ls.flatMap (· ++ ['\n'])) = ls ++ [[]] := by
  induction ls with
  | nil => rfl
  | cons l ls ih =>
    obtain ⟨hl, hrest⟩ := List.forall_mem_cons.mp hls
    rw [List.flatMap_cons, List.append_assoc, List.singleton_append, split_append_cons hl,
      ih hrest, List.cons_append]

/-- The lines of a text of which every line is ended by a line break. -/
def lines (s : List Char) : List (List Char) := (split '\n' s).dropLast

end ClaimTree.Text
