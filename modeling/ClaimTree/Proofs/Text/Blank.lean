import ClaimTree.Text.Blank

namespace ClaimTree.Text

/-- None of the characters is blank. -/
def Solid (s : List Char) : Prop := ∀ c ∈ s, isBlank c = false

/-- All of the characters are blank. -/
def Blank (s : List Char) : Prop := ∀ c ∈ s, isBlank c = true

theorem Solid.cons {c : Char} {s : List Char} (hc : isBlank c = false) (hs : Solid s) :
    Solid (c :: s) := List.forall_mem_cons.mpr ⟨hc, hs⟩

theorem Solid.append {s t : List Char} (hs : Solid s) (ht : Solid t) : Solid (s ++ t) :=
  List.forall_mem_append.mpr ⟨hs, ht⟩

theorem blank_nil : Blank [] := nofun

theorem Blank.dropWhile_append {before : List Char} (hbefore : Blank before) (s : List Char) :
    (before ++ s).dropWhile isBlank = s.dropWhile isBlank :=
  List.dropWhile_append_of_pos hbefore

theorem Blank.reverse {s : List Char} (hs : Blank s) : Blank s.reverse :=
  fun c hc => hs c (List.mem_reverse.mp hc)

/-- What is left of a text when the white space around it is taken away. -/
structure Trimmed (s core : List Char) : Prop where
  around : ∃ before after, Blank before ∧ Blank after ∧ s = before ++ (core ++ after)
  first : ∀ c ∈ core.head?, isBlank c = false
  last : ∀ c ∈ core.getLast?, isBlank c = false

section Trimmed

variable {s core before after : List Char}

/-- Dropping takes the blanks in front and stops at the first character that is none. -/
theorem exists_blank_append_dropWhile (s : List Char) :
    ∃ before, Blank before ∧ s = before ++ s.dropWhile isBlank ∧
      ∀ c ∈ (s.dropWhile isBlank).head?, isBlank c = false := by
  induction s with
  | nil => exact ⟨[], blank_nil, rfl, nofun⟩
  | cons c s ih =>
    cases hc : isBlank c with
    | false =>
      have hkept : (c :: s).dropWhile isBlank = c :: s := by rw [List.dropWhile_cons, hc]; rfl
      rw [hkept]
      refine ⟨[], blank_nil, rfl, fun d hd => ?_⟩
      obtain rfl := Option.some.inj hd
      exact hc
    | true =>
      have hdropped : (c :: s).dropWhile isBlank = s.dropWhile isBlank := by
        rw [List.dropWhile_cons, hc]; rfl
      obtain ⟨before, hbefore, hs, hfirst⟩ := ih
      rw [hdropped]
      refine ⟨c :: before, List.forall_mem_cons.mpr ⟨hc, hbefore⟩, ?_, hfirst⟩
      rw [List.cons_append, ← hs]

theorem dropWhile_append_eq (hne : s ≠ []) (hfirst : ∀ c ∈ s.head?, isBlank c = false)
    (after : List Char) : (s ++ after).dropWhile isBlank = s ++ after := by
  obtain ⟨c, rest, rfl⟩ := List.exists_cons_of_ne_nil hne
  have hc : isBlank c = false := hfirst c rfl
  rw [List.cons_append, List.dropWhile_cons, if_neg (by rw [hc]; exact Bool.false_ne_true)]

theorem trimmed_trim (s : List Char) : Trimmed s (trim s) := by
  obtain ⟨before, hbefore, hstart, hfirst⟩ := exists_blank_append_dropWhile s
  obtain ⟨after, hafter, hend, hlast⟩ := exists_blank_append_dropWhile (trimStart s).reverse
  have hcore : trimStart s = trim s ++ after.reverse := by
    rw [trim, trimEnd, ← List.reverse_append, ← hend, List.reverse_reverse]
  refine ⟨⟨before, after.reverse, hbefore, hafter.reverse, ?_⟩, fun c hc => ?_, fun c hc => ?_⟩
  · rw [← hcore]
    exact hstart
  · apply hfirst c
    change (trimStart s).head? = some c
    rw [hcore, List.head?_append, hc, Option.some_or]
  · apply hlast c
    rwa [← List.getLast?_reverse]

theorem Trimmed.trim_eq (h : Trimmed s core) : trim s = core := by
  obtain ⟨before, after, hbefore, hafter, rfl⟩ := h.around
  have hend : (trimStart (before ++ (core ++ after))).reverse.dropWhile isBlank = core.reverse := by
    rw [trimStart, hbefore.dropWhile_append]
    by_cases hne : core = []
    · have hnil := hafter.dropWhile_append []
      rw [List.append_nil] at hnil
      rw [hne, List.nil_append, hnil]
      rfl
    · have hkept := dropWhile_append_eq (s := core.reverse) (mt List.reverse_eq_nil_iff.mp hne)
        (by rw [List.head?_reverse]; exact h.last) []
      rw [List.append_nil] at hkept
      rw [dropWhile_append_eq hne h.first, List.reverse_append, hafter.reverse.dropWhile_append,
        hkept]
  rw [trim, trimEnd, hend, List.reverse_reverse]

theorem trim_eq_iff : trim s = core ↔ Trimmed s core := by
  constructor
  · rintro rfl
    exact trimmed_trim s
  · exact Trimmed.trim_eq

theorem Solid.trimmed (hs : Solid s) (hbefore : Blank before) (hafter : Blank after) :
    Trimmed (before ++ (s ++ after)) s :=
  ⟨⟨before, after, hbefore, hafter, rfl⟩, fun c hc => hs c (List.mem_of_mem_head? hc),
    fun c hc => hs c (List.mem_of_mem_getLast? hc)⟩

end Trimmed

end ClaimTree.Text
