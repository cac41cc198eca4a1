import ClaimTree.Proofs.Json.Parts

namespace ClaimTree.Json

variable {δ α : Type}

theorem nextKey_closed {s rest : List Char} (hs : skipSpace s = '}' :: rest) (isFirst : Bool) :
    nextKey isFirst s = .ok (.closed rest) := by
  unfold nextKey
  rw [hs]
  rfl

theorem nextKey_part {isFirst : Bool} {s t u : List Char}
    (hs : skipSpace s = skipSpace (comma isFirst ++ t)) (ht : skipSpace t = '"' :: u) :
    nextKey isFirst s = .ok (.part u) := by
  unfold nextKey
  cases isFirst with
  | true =>
    rw [hs.trans ht]
    rfl
  | false =>
    have hcomma : skipSpace s = ',' :: t := hs
    rw [hcomma]
    change (expect ['"'] (skipSpace t)).map Next.part = _
    rw [ht]
    rfl

theorem takeColon_append {gap : List Char} (hgap : Spaces gap) (s : List Char) :
    takeColon (gap ++ ':' :: s) = .ok s := by
  rw [takeColon, hgap.skipSpace_append, skipSpace_cons rfl]
  rfl

namespace Shape

variable {fields : List (Field δ)}

/-- In front of a boundary, the member written as `w` takes the draft from `d` to `d'`. -/
structure Fills (fields : List (Field δ)) (w : List Char) (d d' : δ) : Prop where
  starts : ∃ s, skipSpace w = '"' :: s
  fills : ∀ s rest, skipSpace (w ++ rest) = '"' :: s → Boundary rest →
    ∃ key t, readQuoted s = .ok (key, t) ∧
      Yields (readMember fields (String.ofList key) d t) d' rest

/-- The members written as `ws` take the draft from `d` to `d'`, one after the other. -/
inductive FillsAll (fields : List (Field δ)) : List (List Char) → δ → δ → Prop
  | nil (d : δ) : FillsAll fields [] d d
  | cons {w : List Char} {ws : List (List Char)} {d d' d'' : δ} :
    Fills fields w d d' → FillsAll fields ws d' d'' → FillsAll fields (w :: ws) d d''

section Member

variable {key : String} {d d' : δ} {lead gap v : List Char}

theorem readMember_field {field : Field δ} (hfind : fields.find? (·.key = key) = some field)
    (hempty : field.isFilled d = false) (s : List Char) :
    readMember fields key d s = (do
      let s ← takeColon s
      field.read d s) := by
  unfold readMember
  rw [hfind]
  simp only [hempty, Bool.false_eq_true, if_false]

theorem skipSpace_member (hlead : Spaces lead) (s gap v rest : List Char) :
    skipSpace (lead ++ ('"' :: (s ++ '"' :: (gap ++ ':' :: v))) ++ rest) =
      '"' :: (s ++ '"' :: (gap ++ ':' :: (v ++ rest))) := by
  simp only [List.append_assoc, List.cons_append]
  rw [hlead.skipSpace_append, skipSpace_cons rfl]

/-- The member is read behind its key, whatever way the key is written. -/
theorem Fills.of_key {text s : List Char}
    (hkey : ∀ rest, readQuoted (s ++ '"' :: rest) = .ok (text, rest)) (hlead : Spaces lead)
    (hread : ∀ rest, Boundary rest →
      Yields (readMember fields (String.ofList text) d (gap ++ ':' :: (v ++ rest))) d' rest) :
    Fills fields (lead ++ ('"' :: (s ++ '"' :: (gap ++ ':' :: v)))) d d' := by
  refine ⟨⟨_, (hlead.skipSpace_append _).trans (skipSpace_cons rfl _)⟩, fun t rest ht hrest => ?_⟩
  rw [skipSpace_member hlead] at ht
  obtain ⟨-, rfl⟩ := List.cons.inj ht
  exact ⟨text, gap ++ ':' :: (v ++ rest), hkey _, hread rest hrest⟩

theorem Fills.of_value {text s : List Char} {field : Field δ}
    (hkey : ∀ rest, readQuoted (s ++ '"' :: rest) = .ok (text, rest))
    (hfind : fields.find? (·.key = String.ofList text) = some field)
    (hempty : field.isFilled d = false) (hlead : Spaces lead) (hgap : Spaces gap)
    (hv : Reads (field.read d) v d') :
    Fills fields (lead ++ ('"' :: (s ++ '"' :: (gap ++ ':' :: v)))) d d' := by
  refine .of_key hkey hlead fun rest hrest => ?_
  rw [readMember_field hfind hempty, takeColon_append hgap]
  exact hv.reads (v ++ rest) rest rfl hrest

theorem Fills.of_field {field : Field δ} (hfind : fields.find? (·.key = key) = some field)
    (hempty : field.isFilled d = false) (hlead : Spaces lead) (hgap : Spaces gap)
    (hv : Reads (field.read d) v d') :
    Fills fields (lead ++ (quote key.toList ++ (gap ++ ':' :: v))) d d' := by
  rw [quote_append]
  refine .of_value (readQuoted_quote key.toList) ?_ hempty hlead hgap hv
  rwa [String.ofList_toList]

end Member

/-- Every member is read up to the comma or the bracket behind it. -/
theorem readMembers_separated {ws : List (List Char)} {d d' : δ} (h : FillsAll fields ws d d')
    {after : List Char} (hafter : Spaces after) (rest : List Char) {steps : List Char}
    (hsteps : ws.length < steps.length) {isFirst : Bool} {s : List Char}
    (hs : skipSpace s = skipSpace (separated isFirst ws ++ (after ++ '}' :: rest))) :
    readMembers fields steps isFirst d s = .ok (d', rest) := by
  induction h generalizing steps isFirst s with
  | nil d =>
    obtain ⟨mark, steps, rfl⟩ := List.exists_cons_of_length_pos hsteps
    have hclosed : skipSpace s = '}' :: rest := hs.trans (hafter.skipSpace_append _)
    exact bind_eq_ok_iff.mpr ⟨_, nextKey_closed hclosed isFirst, rfl⟩
  | @cons w ws d d' d'' hw hws ih =>
    obtain ⟨mark, steps, rfl⟩ := List.exists_cons_of_length_pos (Nat.zero_lt_of_lt hsteps)
    obtain ⟨u, hstart⟩ := hw.starts
    have hpart := skipSpace_append hstart (separated false ws ++ (after ++ '}' :: rest))
    rw [separated, List.append_assoc, List.append_assoc] at hs
    obtain ⟨key, t, hkey, left, hleft, hread⟩ := hw.fills _ _ hpart
      (boundary_separated ws hafter (.inr rfl) rest)
    refine bind_eq_ok_iff.mpr ⟨_, nextKey_part hs hpart, ?_⟩
    refine bind_eq_ok_iff.mpr ⟨_, hkey, ?_⟩
    exact bind_eq_ok_iff.mpr ⟨_, hread, ih (Nat.lt_of_succ_lt_succ hsteps) hleft⟩

theorem Fills.ne_nil {w : List Char} {d d' : δ} (h : Fills fields w d d') : w ≠ [] := by
  rintro rfl
  obtain ⟨s, hs⟩ := h.starts
  cases hs

/-- An object is read up to its last bracket, and then the draft is completed. -/
theorem read_of_filled {shape : Shape δ α} {ws : List (List Char)} {d : δ}
    (h : FillsAll shape.fields ws shape.blank d) {after : List Char} (hafter : Spaces after)
    {t rest : List Char}
    (ht : skipSpace t = '{' :: (separated true ws ++ (after ++ ['}']) ++ rest)) :
    shape.read t = shape.finish (d, rest) := by
  have hne : ws.head? ≠ some [] := by
    cases h with
    | nil => exact nofun
    | cons hw _ => exact fun hnil => hw.ne_nil (Option.some.inj hnil)
  have hread : readMembers shape.fields (separated true ws ++ (after ++ '}' :: rest)) true
      shape.blank (separated true ws ++ (after ++ '}' :: rest)) = .ok (d, rest) :=
    readMembers_separated h hafter rest (length_lt_separated hne after rest '}') rfl
  unfold Shape.read
  rw [ht, separated_closed]
  change (readMembers shape.fields _ true shape.blank _ >>= _) = _
  rw [hread]
  rfl

end Shape

theorem Reads.object {shape : Shape δ α} {ws : List (List Char)} {d : δ} {a : α}
    (h : Shape.FillsAll shape.fields ws shape.blank d) (hcomplete : shape.complete d = some a)
    {after : List Char} (hafter : Spaces after) :
    Reads shape.read ('{' :: (separated true ws ++ (after ++ ['}']))) a := by
  refine Reads.of_first (skipSpace_cons (c := '{') rfl _) (by decide) fun t rest ht _ => ?_
  refine Yields.of_eq ?_
  rw [Shape.read_of_filled h hafter ht, Shape.finish, hcomplete]

/-- A field kept as an option is filled with what its value reads as. -/
theorem Reads.ofSlot {key : String} {slot : δ → Option α} {fill : δ → α → δ}
    {value : Reader α} {v : List Char} {a : α} (h : Reads value v a) (d : δ) :
    Reads ((Field.ofSlot key slot fill value).read d) v (fill d a) where
  starts := h.starts
  reads s rest hs hrest := (h.reads s rest hs hrest).map

end ClaimTree.Json
