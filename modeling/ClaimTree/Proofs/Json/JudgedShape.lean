import ClaimTree.Proofs.Json.Judged
import ClaimTree.Proofs.Json.Members

namespace ClaimTree.Json

variable {δ α : Type}

namespace Shape

variable {fields : List (Field δ)}

/-- In front of a boundary, the member written as `w` is refused when it meets the draft `d`. -/
structure RefusesMember (fields : List (Field δ)) (w : List Char) (d : δ) (f : Fault) : Prop where
  starts : ∃ s, skipSpace w = '"' :: s
  refuses : ∀ s rest, skipSpace (w ++ rest) = '"' :: s → Boundary rest → (do
    let (key, s) ← readQuoted s
    readMember fields (String.ofList key) d s) = .error f

theorem RefusesMember.ne_nil {w : List Char} {d : δ} {f : Fault}
    (h : RefusesMember fields w d f) : w ≠ [] := by
  rintro rfl
  obtain ⟨s, hs⟩ := h.starts
  cases hs

section Member

variable {key : String} {d : δ} {lead gap v s : List Char} {f : Fault}

theorem RefusesMember.of_quoted (hlead : Spaces lead)
    (h : ∀ rest, Boundary rest → (do
      let (key, s) ← readQuoted (s ++ '"' :: (gap ++ ':' :: (v ++ rest)))
      readMember fields (String.ofList key) d s) = .error f) :
    RefusesMember fields (lead ++ ('"' :: (s ++ '"' :: (gap ++ ':' :: v)))) d f := by
  refine ⟨⟨_, (hlead.skipSpace_append _).trans (skipSpace_cons rfl _)⟩, fun t rest ht hrest => ?_⟩
  rw [skipSpace_member hlead] at ht
  obtain ⟨-, rfl⟩ := List.cons.inj ht
  exact h rest hrest

theorem readMember_filled {field : Field δ} (hfind : fields.find? (·.key = key) = some field)
    (hfilled : field.isFilled d = true) (s : List Char) :
    readMember fields key d s = .error .mistyped := by
  unfold readMember
  rw [hfind]
  simp only [hfilled, if_true]

/-- A field that is filled already is refused at its key. -/
theorem RefusesMember.of_filled {text : List Char} {field : Field δ}
    (hkey : ∀ rest, readQuoted (s ++ '"' :: rest) = .ok (text, rest))
    (hfind : fields.find? (·.key = String.ofList text) = some field)
    (hfilled : field.isFilled d = true) (hlead : Spaces lead) :
    RefusesMember fields (lead ++ ('"' :: (s ++ '"' :: (gap ++ ':' :: v)))) d .mistyped := by
  refine .of_quoted hlead fun rest _ => ?_
  rw [hkey]
  exact readMember_filled hfind hfilled _

theorem RefusesMember.of_value {text : List Char} {field : Field δ}
    (hkey : ∀ rest, readQuoted (s ++ '"' :: rest) = .ok (text, rest))
    (hfind : fields.find? (·.key = String.ofList text) = some field)
    (hempty : field.isFilled d = false) (hlead : Spaces lead) (hgap : Spaces gap)
    (hv : Refuses (field.read d) v f) :
    RefusesMember fields (lead ++ ('"' :: (s ++ '"' :: (gap ++ ':' :: v)))) d f := by
  refine .of_quoted hlead fun rest hrest => ?_
  rw [hkey]
  change readMember fields (String.ofList text) d (gap ++ ':' :: (v ++ rest)) = _
  rw [readMember_field hfind hempty, takeColon_append hgap]
  exact hv.refuses (v ++ rest) rest rfl hrest

theorem readMember_foreign (hfind : fields.find? (·.key = key) = none) (s : List Char) :
    readMember fields key d s = (do
      let s ← takeColon s
      let s ← passValue s
      return (d, s)) := by
  unfold readMember
  rw [hfind]

/-- A member that is none of the fields leaves the draft as it is. -/
theorem Fills.of_foreign {text : List Char}
    (hkey : ∀ rest, readQuoted (s ++ '"' :: rest) = .ok (text, rest))
    (hfind : fields.find? (·.key = String.ofList text) = none) (hlead : Spaces lead)
    (hgap : Spaces gap) {before w after : List Char} (hbefore : Spaces before)
    (hafter : Spaces after) (hw : WellFormed w) :
    Fills fields (lead ++ ('"' :: (s ++ '"' :: (gap ++ ':' :: (before ++ w ++ after))))) d d := by
  refine .of_key hkey hlead fun rest hrest => ?_
  have hs : skipSpace (before ++ w ++ after ++ rest) = skipSpace (w ++ (after ++ rest)) := by
    rw [List.append_assoc, List.append_assoc, hbefore.skipSpace_append]
  obtain ⟨left, hleft, hpass⟩ := hw.exists_passValue hs (hrest.spaces_append hafter)
  refine ⟨left, hleft.trans (hafter.skipSpace_append rest), ?_⟩
  rw [readMember_foreign hfind, takeColon_append hgap]
  refine bind_eq_ok_iff.mpr ⟨_, rfl, ?_⟩
  exact bind_eq_ok_iff.mpr ⟨left, hpass, rfl⟩

/-- A member is read into the draft, or refused for what is in it. -/
theorem judged_member {among : Fault → Prop} {m : List Char × List Char} {p : List Char}
    (hp : MemberText m p) (hkey : Body m.1) (hv : WellFormed m.2) (hrepeated : among .mistyped)
    (hunpaired : Unpaired m.1 → among .malformed)
    (hfields : ∀ field ∈ fields, ∀ d, Judged among (field.read d) m.2) (d : δ) :
    (∃ d', Fills fields p d d') ∨ ∃ f, among f ∧ RefusesMember fields p d f := by
  obtain ⟨lead, gap, v, hlead, hgap, helement, rfl⟩ := hp
  rcases hkey.settles with ⟨text, hread⟩ | hread
  · cases hfind : fields.find? (·.key = String.ofList text) with
    | none =>
      obtain ⟨before, after, hbefore, hafter, rfl⟩ := helement
      exact .inl ⟨d, .of_foreign hread hfind hlead hgap hbefore hafter hv⟩
    | some field =>
      cases hempty : field.isFilled d with
      | true => exact .inr ⟨.mistyped, hrepeated, .of_filled hread hfind hempty hlead⟩
      | false =>
        rcases (hfields field (List.mem_of_find?_eq_some hfind) d).element helement with
          ⟨d', hvalue⟩ | ⟨f, hf, hrefuse⟩
        · exact .inl ⟨d', .of_value hread hfind hempty hlead hgap hvalue⟩
        · exact .inr ⟨f, hf, .of_value hread hfind hempty hlead hgap hrefuse⟩
  · refine .inr ⟨.malformed, hunpaired (.of_malformed hkey hread),
      .of_quoted hlead fun rest _ => ?_⟩
    rw [hread]
    rfl

end Member

section Members

variable {ws ws' : List (List Char)} {w after : List Char} {d d' : δ} {f : Fault}

theorem readMembers_refused (h : FillsAll fields ws d d') (hw : RefusesMember fields w d' f)
    (hafter : Spaces after) (rest : List Char) {steps : List Char}
    (hsteps : ws.length < steps.length) {isFirst : Bool} {s : List Char}
    (hs : skipSpace s =
      skipSpace (separated isFirst (ws ++ w :: ws') ++ (after ++ '}' :: rest))) :
    readMembers fields steps isFirst d s = .error f := by
  induction h generalizing steps isFirst s with
  | nil d =>
    obtain ⟨mark, steps, rfl⟩ := List.exists_cons_of_length_pos hsteps
    obtain ⟨u, hstart⟩ := hw.starts
    have hpart := skipSpace_append hstart (separated false ws' ++ (after ++ '}' :: rest))
    rw [List.nil_append, separated, List.append_assoc, List.append_assoc] at hs
    have hrefuse := hw.refuses _ _ hpart (boundary_separated ws' hafter (.inr rfl) rest)
    refine bind_eq_error_iff.mpr (.inr ⟨_, nextKey_part hs hpart, ?_⟩)
    rcases bind_eq_error_iff.mp hrefuse with hkey | ⟨key, hkey, hmember⟩
    · exact bind_eq_error_iff.mpr (.inl hkey)
    · refine bind_eq_error_iff.mpr (.inr ⟨key, hkey, ?_⟩)
      exact bind_eq_error_iff.mpr (.inl hmember)
  | @cons v ws d d' d'' hv hws ih =>
    obtain ⟨mark, steps, rfl⟩ := List.exists_cons_of_length_pos (Nat.zero_lt_of_lt hsteps)
    obtain ⟨u, hstart⟩ := hv.starts
    have hpart := skipSpace_append hstart
      (separated false (ws ++ w :: ws') ++ (after ++ '}' :: rest))
    rw [List.cons_append, separated, List.append_assoc, List.append_assoc] at hs
    obtain ⟨key, t, hkey, left, hleft, hread⟩ := hv.fills _ _ hpart
      (boundary_separated (ws ++ w :: ws') hafter (.inr rfl) rest)
    refine bind_eq_error_iff.mpr (.inr ⟨_, nextKey_part hs hpart, ?_⟩)
    refine bind_eq_error_iff.mpr (.inr ⟨_, hkey, ?_⟩)
    exact bind_eq_error_iff.mpr
      (.inr ⟨_, hread, ih hw (Nat.lt_of_succ_lt_succ hsteps) hleft⟩)

/-- All members are read into the draft, or there is a first one that is refused. -/
theorem exists_first_member_refused {among : Fault → Prop} {parts : List (List Char)}
    (h : ∀ p ∈ parts, ∀ d, (∃ d', Fills fields p d d') ∨
      ∃ f, among f ∧ RefusesMember fields p d f) (d : δ) :
    (∃ d', FillsAll fields parts d d') ∨
      ∃ front p back d' f, parts = front ++ p :: back ∧ FillsAll fields front d d' ∧
        among f ∧ RefusesMember fields p d' f := by
  induction parts generalizing d with
  | nil => exact .inl ⟨d, .nil d⟩
  | cons p parts ih =>
    obtain ⟨hp, hparts⟩ := List.forall_mem_cons.mp h
    rcases hp d with ⟨d₁, hfill⟩ | ⟨f, hf, hrefuse⟩
    · rcases ih hparts d₁ with ⟨d', hall⟩ | ⟨front, q, back, d', f, rfl, hall, hf, hrefuse⟩
      · exact .inl ⟨d', .cons hfill hall⟩
      · exact .inr ⟨p :: front, q, back, d', f, rfl, .cons hfill hall, hf, hrefuse⟩
    · exact .inr ⟨[], p, parts, d, f, rfl, .nil d, hf, hrefuse⟩

end Members

end Shape

section Object

variable {shape : Shape δ α} {ws ws' : List (List Char)} {w after : List Char} {d : δ} {f : Fault}

theorem Refuses.object (h : Shape.FillsAll shape.fields ws shape.blank d)
    (hw : Shape.RefusesMember shape.fields w d f) (hafter : Spaces after) :
    Refuses shape.read ('{' :: (separated true (ws ++ w :: ws') ++ (after ++ ['}']))) f := by
  refine .of_first rfl (by decide) fun s rest hs _ => ?_
  unfold Shape.read
  rw [hs, separated_closed]
  refine bind_eq_error_iff.mpr (.inl (Shape.readMembers_refused h hw hafter rest ?_ rfl))
  have hne : (ws ++ w :: ws').head? ≠ some [] := by
    cases h with
    | nil => exact fun hnil => hw.ne_nil (Option.some.inj hnil)
    | cons hv _ => exact fun hnil => hv.ne_nil (Option.some.inj hnil)
  exact Nat.lt_of_le_of_lt (List.sublist_append_left ws _).length_le
    (length_lt_separated hne after rest '}')

/-- An object is refused at its end when a field is missing. -/
theorem Refuses.incomplete (h : Shape.FillsAll shape.fields ws shape.blank d)
    (hcomplete : shape.complete d = none) (hafter : Spaces after) :
    Refuses shape.read ('{' :: (separated true ws ++ (after ++ ['}']))) .mistyped := by
  refine .of_first rfl (by decide) fun s rest hs _ => ?_
  rw [Shape.read_of_filled h hafter hs, Shape.finish, hcomplete]

end Object

section Array

variable {after : List Char}

theorem Shape.readElements_closed {s rest : List Char} (hs : skipSpace s = ']' :: rest)
    (fields : List (Field δ)) (isFirst : Bool) (d : δ) :
    readElements fields isFirst d s = .ok (d, rest) := by
  cases fields with
  | nil =>
    unfold readElements
    rw [hs]
    rfl
  | cons field fields => exact bind_eq_ok_iff.mpr ⟨_, nextElement_closed hs isFirst, rfl⟩

/-- Behind the last field nothing but the end of the array is in order. -/
theorem Shape.readElements_surplus {s u : List Char} {c : Char} (hs : skipSpace s = c :: u)
    (hc : c ≠ ']') (isFirst : Bool) (d : δ) :
    readElements [] isFirst d s = .error .malformed := by
  unfold readElements
  rw [hs]
  split
  · next h => cases h
  · next h => exact absurd (List.cons.inj h).1 hc
  · rfl

/-- The fields are read in their order until the array ends, and one is refused when it is not
read. -/
theorem Shape.judged_elements {among : Fault → Prop} {fields : List (Field δ)}
    {parts : List (List Char)}
    (hfields : ∀ field ∈ fields, ∀ d, ∀ p ∈ parts, Judged among (field.read d) p)
    (hsurplus : fields.length < parts.length → among .malformed)
    (hstarts : ∀ p ∈ parts, ∃ c u, skipSpace p = c :: u ∧ c ≠ ']') (hafter : Spaces after)
    (isFirst : Bool) (d : δ) :
    (∃ d', ∀ s rest, skipSpace s = skipSpace (separated isFirst parts ++ (after ++ ']' :: rest)) →
      readElements fields isFirst d s = .ok (d', rest)) ∨
    ∃ f, among f ∧ ∀ s rest,
      skipSpace s = skipSpace (separated isFirst parts ++ (after ++ ']' :: rest)) →
      readElements fields isFirst d s = .error f := by
  induction fields generalizing parts isFirst d with
  | nil =>
    cases parts with
    | nil =>
      exact .inl ⟨d, fun s rest hs =>
        readElements_closed (hs.trans (hafter.skipSpace_append _)) [] isFirst d⟩
    | cons p parts =>
      refine .inr ⟨.malformed, hsurplus (Nat.zero_lt_succ _), fun s rest hs => ?_⟩
      obtain ⟨c, u, hstart, hc⟩ := hstarts p List.mem_cons_self
      rw [separated, List.append_assoc, List.append_assoc] at hs
      cases isFirst with
      | true => exact readElements_surplus (hs.trans (skipSpace_append hstart _)) hc true d
      | false => exact readElements_surplus hs (by decide) false d
  | cons field fields ih =>
    cases parts with
    | nil =>
      exact .inl ⟨d, fun s rest hs =>
        readElements_closed (hs.trans (hafter.skipSpace_append _)) (field :: fields) isFirst d⟩
    | cons p parts =>
      obtain ⟨c, u, hstart, hc⟩ := hstarts p List.mem_cons_self
      have hpart (rest : List Char) :=
        skipSpace_append hstart (separated false parts ++ (after ++ ']' :: rest))
      have hfirst (rest : List Char) := skipSpace_of_start (hpart rest)
      have hnext {s rest : List Char} (hs : skipSpace s =
          skipSpace (separated isFirst (p :: parts) ++ (after ++ ']' :: rest))) :
          nextElement isFirst s =
            .ok (.part (c :: (u ++ (separated false parts ++ (after ++ ']' :: rest))))) := by
        rw [separated, List.append_assoc, List.append_assoc] at hs
        exact nextElement_part hs (hpart rest) hc
      have hboundary (rest : List Char) := boundary_separated parts hafter (.inl rfl) rest
      rcases hfields field List.mem_cons_self d p List.mem_cons_self with
        ⟨d₁, hread⟩ | ⟨f, hf, hrefuse⟩
      · have hothers := ih (fun g hg d q hq =>
          hfields g (List.mem_cons_of_mem _ hg) d q (List.mem_cons_of_mem _ hq))
          (fun hlength => hsurplus (Nat.succ_lt_succ hlength))
          (fun q hq => hstarts q (List.mem_cons_of_mem _ hq)) false d₁
        refine hothers.imp ?_ ?_
        · rintro ⟨d', hd'⟩
          refine ⟨d', fun s rest hs => bind_eq_ok_iff.mpr ⟨_, hnext hs, ?_⟩⟩
          obtain ⟨left, hleft, hvalue⟩ := hread.reads _ _ (hfirst rest) (hboundary rest)
          exact bind_eq_ok_iff.mpr ⟨_, hvalue, hd' left rest hleft⟩
        · rintro ⟨f, hf, hrefuse⟩
          refine ⟨f, hf, fun s rest hs => bind_eq_error_iff.mpr (.inr ⟨_, hnext hs, ?_⟩)⟩
          obtain ⟨left, hleft, hvalue⟩ := hread.reads _ _ (hfirst rest) (hboundary rest)
          exact bind_eq_error_iff.mpr (.inr ⟨_, hvalue, hrefuse left rest hleft⟩)
      · refine .inr ⟨f, hf, fun s rest hs => bind_eq_error_iff.mpr (.inr ⟨_, hnext hs, ?_⟩)⟩
        exact bind_eq_error_iff.mpr (.inl (hrefuse.refuses _ _ (hfirst rest) (hboundary rest)))

end Array

namespace WellFormed

variable {shape : Shape δ α} {width : Nat} {w : List Char}

theorem judged_object {ms : List (List Char × List Char)}
    (hms : ∀ m ∈ ms, Body m.1 ∧ WellFormed m.2) (hw : ObjectText ms w)
    (hfields : ∀ field ∈ shape.fields, ∀ d v, WellFormed v →
      Judged (Found width v) (field.read d) v) :
    Judged (Found width w) shape.read w := by
  have htext := hw
  obtain ⟨parts, after, hparts, hafter, hw⟩ := hw
  have hmembers : ∀ p ∈ parts, ∀ d, (∃ d', Shape.Fills shape.fields p d d') ∨
      ∃ f, Found width w f ∧ Shape.RefusesMember shape.fields p d f := by
    intro p hp d
    obtain ⟨m, hm, hmember⟩ := exists_of_forall₂_right hparts hp
    obtain ⟨hkey, hv⟩ := hms m hm
    refine Shape.judged_member hmember hkey hv .mistyped
      (fun hunpaired => .malformed (.key htext hm hunpaired)) (fun field hfield d => ?_) d
    exact (hfields field hfield d m.2 hv).imp fun f => .imp (.member htext hm)
  rw [hw] at hmembers ⊢
  rcases Shape.exists_first_member_refused hmembers shape.blank with ⟨d, hall⟩ |
    ⟨front, p, back, d, f, rfl, hall, hf, hrefuse⟩
  · cases hcomplete : shape.complete d with
    | some a => exact .inl ⟨a, .object hall hcomplete hafter⟩
    | none => exact .inr ⟨.mistyped, .mistyped, .incomplete hall hcomplete hafter⟩
  · exact .inr ⟨f, hf, .object hall hrefuse hafter⟩

theorem judged_array {vs : List (List Char)} (hvs : ∀ v ∈ vs, WellFormed v) (hw : ArrayText vs w)
    (hwidth : width ≤ shape.fields.length)
    (hfields : ∀ field ∈ shape.fields, ∀ d v, WellFormed v →
      Judged (Found width v) (field.read d) v) :
    Judged (Found width w) shape.read w := by
  have htext := hw
  obtain ⟨parts, after, hparts, hafter, hw⟩ := hw
  have hjudged : ∀ field ∈ shape.fields, ∀ d, ∀ p ∈ parts,
      Judged (Found width w) (field.read d) p := by
    intro field hfield d p hp
    obtain ⟨v, hv, helement⟩ := exists_of_forall₂_right hparts hp
    exact ((hfields field hfield d v (hvs v hv)).element helement).imp fun f =>
      .imp (.element htext hv)
  have hsurplus (hlength : shape.fields.length < parts.length) : Found width w .malformed := by
    rw [← hparts.length_eq] at hlength
    exact .malformed (.surplus htext (Nat.lt_of_le_of_lt hwidth hlength))
  have hstarts : ∀ p ∈ parts, ∃ c u, skipSpace p = c :: u ∧ c ≠ ']' := by
    intro p hp
    obtain ⟨v, hv, before, after, hbefore, hafter, rfl⟩ := exists_of_forall₂_right hparts hp
    obtain ⟨c, u, rfl, hspace, hc⟩ := (hvs v hv).starts
    refine ⟨c, u ++ after, ?_, hc⟩
    rw [List.append_assoc, hbefore.skipSpace_append]
    exact skipSpace_cons hspace _
  have hread {s rest : List Char}
      (hs : skipSpace s = '[' :: (separated true parts ++ (after ++ [']']) ++ rest)) :
      shape.read s = (do shape.finish (← Shape.readElements shape.fields true shape.blank
        (separated true parts ++ (after ++ ']' :: rest)))) := by
    unfold Shape.read
    rw [hs, separated_closed]
    rfl
  rw [hw] at hjudged hsurplus ⊢
  rcases Shape.judged_elements hjudged hsurplus hstarts hafter true shape.blank with
    ⟨d, hall⟩ | ⟨f, hf, hrefuse⟩
  · cases hcomplete : shape.complete d with
    | some a =>
      refine .inl ⟨a, .of_first (skipSpace_cons (c := '[') rfl _) (by decide)
        fun s rest hs _ => Yields.of_eq ?_⟩
      rw [hread hs, hall _ rest rfl]
      change shape.finish (d, rest) = _
      rw [Shape.finish, hcomplete]
    | none =>
      refine .inr ⟨.mistyped, .mistyped, .of_first rfl (by decide) fun s rest hs _ => ?_⟩
      rw [hread hs, hall _ rest rfl]
      change shape.finish (d, rest) = _
      rw [Shape.finish, hcomplete]
  · refine .inr ⟨f, hf, .of_first rfl (by decide) fun s rest hs _ => ?_⟩
    rw [hread hs, hrefuse _ rest rfl]
    rfl

/-- A value with fixed fields is read, or refused for what is in it. -/
theorem judged_shape (h : WellFormed w) (hwidth : width ≤ shape.fields.length)
    (hfields : ∀ field ∈ shape.fields, ∀ d v, WellFormed v →
      Judged (Found width v) (field.read d) v) :
    Judged (Found width w) shape.read w := by
  obtain ⟨c, u, rfl, -, -⟩ := h.starts
  by_cases harray : c = '['
  · obtain ⟨vs, hvs, hw⟩ := h.kind.array harray
    exact judged_array hvs hw hwidth hfields
  by_cases hobject : c = '{'
  · obtain ⟨ms, hms, hw⟩ := h.kind.object hobject
    exact judged_object hms hw hfields
  refine h.judged_of_wrongKind fun s t hs => ?_
  unfold Shape.read
  rw [hs]
  split
  · next heq => exact absurd (List.cons.inj heq).1 harray
  · next heq => exact absurd (List.cons.inj heq).1 hobject
  · rfl

end WellFormed

end ClaimTree.Json
