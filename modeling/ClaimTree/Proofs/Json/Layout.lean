import ClaimTree.Json.Reader
import ClaimTree.Json.Value

namespace ClaimTree.Json

def Spaces (s : List Char) : Prop := ∀ c ∈ s, isSpace c = true

/-- The text is at its end, or goes on with white space or with a mark that ends a value. -/
def Boundary (s : List Char) : Prop :=
  ∀ c, s.head? = some c → isSpace c = true ∨ c = ',' ∨ c = ']' ∨ c = '}'

theorem spaces_nil : Spaces [] := nofun

theorem Spaces.skipSpace_append {before : List Char} (hbefore : Spaces before) (s : List Char) :
    skipSpace (before ++ s) = skipSpace s :=
  List.dropWhile_append_of_pos hbefore

theorem skipSpace_cons {c : Char} (hc : isSpace c = false) (s : List Char) :
    skipSpace (c :: s) = c :: s := by
  rw [skipSpace, List.dropWhile_cons, if_neg (by rw [hc]; exact Bool.false_ne_true)]

theorem isSpace_of_skipSpace {s t : List Char} {c : Char} (h : skipSpace s = c :: t) :
    isSpace c = false := by
  induction s with
  | nil => cases h
  | cons d s ih =>
    rw [skipSpace, List.dropWhile_cons] at h
    split at h
    · exact ih h
    · next hd =>
      obtain ⟨rfl, -⟩ := List.cons.inj h
      simpa using hd

theorem skipSpace_idem (s : List Char) : skipSpace (skipSpace s) = skipSpace s := by
  cases h : skipSpace s with
  | nil => rfl
  | cons c t => exact skipSpace_cons (isSpace_of_skipSpace h) t

/-- What is left starts where it started before. -/
theorem skipSpace_of_start {s u : List Char} {c : Char} (h : skipSpace s = c :: u) :
    skipSpace (c :: u) = skipSpace s := by
  rw [← h, skipSpace_idem]

theorem skipSpace_append {s t : List Char} {c : Char} (h : skipSpace s = c :: t)
    (rest : List Char) :
    skipSpace (s ++ rest) = c :: (t ++ rest) := by
  induction s with
  | nil => cases h
  | cons d s ih =>
    rw [skipSpace, List.dropWhile_cons] at h
    rw [List.cons_append, skipSpace, List.dropWhile_cons]
    split at h
    · next hd =>
      rw [if_pos hd]
      exact ih h
    · next hd =>
      obtain ⟨rfl, rfl⟩ := List.cons.inj h
      rw [if_neg hd]

theorem boundary_nil : Boundary [] := nofun

theorem Boundary.spaces_append {after rest : List Char} (hafter : Spaces after)
    (hrest : Boundary rest) : Boundary (after ++ rest) := by
  cases after with
  | nil => exact hrest
  | cons c after =>
    intro d hd
    obtain rfl := Option.some.inj hd
    exact .inl (hafter c List.mem_cons_self)

theorem boundary_cons {c : Char} (hc : c = ',' ∨ c = ']' ∨ c = '}') (s : List Char) :
    Boundary (c :: s) := by
  intro d hd
  obtain rfl := Option.some.inj hd
  exact .inr hc

theorem spaces_lineBreak (layout : Layout) (depth : Nat) : Spaces (layout.lineBreak depth) := by
  cases layout with
  | compact => exact spaces_nil
  | pretty =>
    intro c hc
    rcases List.mem_cons.mp hc with rfl | hspace
    · rfl
    · rw [List.eq_of_mem_replicate hspace]
      rfl

end ClaimTree.Json
