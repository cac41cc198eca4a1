import ClaimTree.Proofs.Except
import ClaimTree.Proofs.Json.Numeral
import ClaimTree.Proofs.Json.Quoted

namespace ClaimTree.Json

variable {α β : Type}

/-- The reading comes to `a` and leaves `rest`, up to white space in front of it. -/
def Yields (read : Except Fault (α × List Char)) (a : α) (rest : List Char) : Prop :=
  ∃ left, skipSpace left = skipSpace rest ∧ read = .ok (a, left)

theorem Yields.of_eq {read : Except Fault (α × List Char)} {a : α} {rest : List Char}
    (h : read = .ok (a, rest)) : Yields read a rest :=
  ⟨rest, rfl, h⟩

theorem Yields.map {read : Except Fault (α × List Char)} {a : α} {rest : List Char} {f : α → β}
    (h : Yields read a rest) :
    Yields (do let (a, s) ← read; return (f a, s)) (f a) rest := by
  obtain ⟨left, hleft, rfl⟩ := h
  exact ⟨left, hleft, rfl⟩

/-- In front of a boundary, the text `w` is read as the value `a`. -/
structure Reads (value : Reader α) (w : List Char) (a : α) : Prop where
  starts : ∃ c s, skipSpace w = c :: s ∧ c ≠ ']'
  reads : ∀ s rest, skipSpace s = skipSpace (w ++ rest) → Boundary rest → Yields (value s) a rest

namespace Reads

theorem of_first {value : Reader α} {w s : List Char} {c : Char} {a : α}
    (hw : skipSpace w = c :: s) (hc : c ≠ ']')
    (h : ∀ t rest, skipSpace t = c :: (s ++ rest) → Boundary rest → Yields (value t) a rest) :
    Reads value w a where
  starts := ⟨c, s, hw, hc⟩
  reads t rest ht hrest := h t rest (ht.trans (skipSpace_append hw rest)) hrest

theorem ne_nil {value : Reader α} {w : List Char} {a : α} (h : Reads value w a) : w ≠ [] := by
  rintro rfl
  obtain ⟨c, s, hw, -⟩ := h.starts
  cases hw

theorem surrounded {value : Reader α} {before w after : List Char} {a : α}
    (hbefore : Spaces before) (hafter : Spaces after) (h : Reads value w a) :
    Reads value (before ++ w ++ after) a := by
  obtain ⟨c, s, hw, hc⟩ := h.starts
  have hstart : skipSpace (before ++ w ++ after) = c :: (s ++ after) := by
    rw [List.append_assoc, hbefore.skipSpace_append, skipSpace_append hw]
  refine ⟨⟨c, s ++ after, hstart, hc⟩, fun t rest ht hrest => ?_⟩
  have hsame : skipSpace t = skipSpace (w ++ (after ++ rest)) := by
    rw [ht, skipSpace_append hstart, skipSpace_append hw, List.append_assoc]
  obtain ⟨left, hleft, hread⟩ := h.reads t (after ++ rest) hsame (hrest.spaces_append hafter)
  exact ⟨left, hleft.trans (hafter.skipSpace_append rest), hread⟩

/-- A text that reads as a value is a document of that value. -/
theorem readDocument {value : Reader α} {text : String} {a : α} (h : Reads value text.toList a) :
    readDocument value text = .ok a := by
  obtain ⟨left, hleft, hread⟩ := h.reads text.toList [] (by rw [List.append_nil]) boundary_nil
  refine bind_eq_ok_iff.mpr ⟨(a, left), hread, ?_⟩
  change (if (skipSpace left).isEmpty = true then _ else _) = _
  rw [hleft]
  rfl

theorem string (text : String) : Reads readString (quote text.toList) text := by
  refine of_first (skipSpace_cons (c := '"') rfl _) (by decide) fun t rest ht _ => ?_
  refine Yields.of_eq ?_
  have hread : readQuoted (text.toList.flatMap escape ++ ['"'] ++ rest) =
      .ok (text.toList, rest) := by
    rw [List.append_assoc, List.singleton_append, readQuoted_quote]
  unfold readString
  rw [ht]
  refine bind_eq_ok_iff.mpr ⟨_, hread, ?_⟩
  exact congrArg (fun text => Except.ok (text, rest)) String.ofList_toList

theorem text {ε : Type} {parse : String → Except ε α} {text : String} {a : α}
    (h : parse text = .ok a) : Reads (readText parse) (quote text.toList) a := by
  refine ⟨(string text).starts, fun t rest ht hrest => ?_⟩
  obtain ⟨left, hleft, hread⟩ := (string text).reads t rest ht hrest
  refine ⟨left, hleft, ?_⟩
  refine bind_eq_ok_iff.mpr ⟨_, hread, ?_⟩
  simp only [h]
  rfl

theorem count (n : UInt64) : Reads readCount (Nat.toDigits 10 n.toNat) n := by
  obtain ⟨ds, hne, hds, -, hrow⟩ := Text.exists_row_eq_toDigits 10 (by decide) n.toNat
  obtain ⟨d, others, rfl⟩ := List.exists_cons_of_ne_nil hne
  have hdecimal : Text.isDecimal (Nat.digitChar d) = true :=
    isDecimal_digitChar (hds d List.mem_cons_self)
  have hstart : ∀ d < 10, isSpace (Nat.digitChar d) = false ∧ Nat.digitChar d ≠ ']' := by decide
  obtain ⟨hspace, hbracket⟩ := hstart d (hds d List.mem_cons_self)
  have hfirst : Nat.toDigits 10 n.toNat = Nat.digitChar d :: Text.row others := hrow
  have hskip : skipSpace (Nat.toDigits 10 n.toNat) = Nat.digitChar d :: Text.row others := by
    rw [hfirst, skipSpace_cons hspace]
  refine of_first hskip hbracket fun t rest ht hrest => ?_
  refine Yields.of_eq ?_
  have hread := readNumeral_toDigits n.toNat hrest
  rw [hfirst, List.cons_append] at hread
  unfold readCount
  rw [ht]
  simp only [startsNumeral, hdecimal, Bool.or_true, if_true]
  refine bind_eq_ok_iff.mpr ⟨_, hread, ?_⟩
  rw [← hfirst]
  exact bind_eq_ok_iff.mpr ⟨n, count_toDigits n, rfl⟩

theorem absent (value : Reader α) : Reads (readOption value) ['n', 'u', 'l', 'l'] none := by
  refine of_first (skipSpace_cons (c := 'n') rfl _) (by decide) fun t rest ht _ => ?_
  refine Yields.of_eq ?_
  unfold readOption
  rw [ht]
  rfl

theorem present {value : Reader α} {w : List Char} {a : α} (h : Reads value w a)
    (hnull : ∀ s, skipSpace w ≠ 'n' :: s) : Reads (readOption value) w (some a) := by
  obtain ⟨c, s, hw, hc⟩ := h.starts
  refine of_first hw hc fun t rest ht hrest => ?_
  have hread : readOption value t = (do
      let (a, s) ← value (c :: (s ++ rest))
      return (some a, s)) := by
    unfold readOption
    rw [ht]
    split
    · next hn =>
      obtain ⟨rfl, -⟩ := List.cons.inj hn
      exact absurd hw (hnull s)
    · rfl
  rw [hread]
  refine Yields.map (h.reads _ rest ?_ hrest)
  rw [skipSpace_append hw, ← ht, skipSpace_idem]

end Reads

end ClaimTree.Json
