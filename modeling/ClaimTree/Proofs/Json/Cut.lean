import ClaimTree.Proofs.Json.Written

namespace ClaimTree.Json

variable {α δ : Type}

/-- The text `cut` is how `w` begins, and not all of it. -/
def Cut (cut w : List Char) : Prop := ∃ c rest, w = cut ++ c :: rest

section Cut

variable {cut u v w : List Char} {c : Char}

theorem Cut.nil (hw : w ≠ []) : Cut [] w := by
  obtain ⟨c, rest, rfl⟩ := List.exists_cons_of_ne_nil hw
  exact ⟨c, rest, rfl⟩

theorem not_cut_nil : ¬Cut cut [] := by
  rintro ⟨c, rest, h⟩
  cases cut <;> cases h

theorem Cut.cons (h : Cut cut (c :: w)) : cut = [] ∨ ∃ cut', cut = c :: cut' ∧ Cut cut' w := by
  obtain ⟨d, rest, h⟩ := h
  cases cut with
  | nil => exact .inl rfl
  | cons e cut =>
    obtain ⟨rfl, rfl⟩ := List.cons.inj h
    exact .inr ⟨cut, rfl, d, rest, rfl⟩

theorem Cut.singleton (h : Cut cut [c]) : cut = [] := by
  rcases h.cons with rfl | ⟨cut', -, hnil⟩
  · rfl
  · exact absurd hnil not_cut_nil

/-- The cut is in the first part, or behind it. -/
theorem Cut.append (h : Cut cut (u ++ v)) : Cut cut u ∨ ∃ cut', cut = u ++ cut' ∧ Cut cut' v := by
  obtain ⟨c, rest, h⟩ := h
  rcases List.append_eq_append_iff.mp h with ⟨more, rfl, rfl⟩ | ⟨more, rfl, hrest⟩
  · exact .inr ⟨more, rfl, c, rest, rfl⟩
  · cases more with
    | nil => exact .inr ⟨[], by simp, c, rest, hrest.symm⟩
    | cons d more => exact .inl ⟨d, more, rfl⟩

theorem Cut.exists_take (h : Cut cut w) : ∃ n < w.length, cut = w.take n := by
  obtain ⟨c, rest, rfl⟩ := h
  refine ⟨cut.length, ?_, List.take_left.symm⟩
  rw [List.length_append, List.length_cons]
  omega

theorem Cut.spaces (h : Cut cut w) (hw : Spaces w) : Spaces cut := by
  obtain ⟨c, rest, rfl⟩ := h
  exact fun d hd => hw d (List.mem_append_left _ hd)

theorem Spaces.skipSpace_eq (hw : Spaces w) : skipSpace w = [] := by
  have hall := hw.skipSpace_append []
  rwa [List.append_nil] at hall

theorem Cut.blank {after : List Char} (h : Cut cut (after ++ [c])) (hafter : Spaces after) :
    skipSpace cut = [] := by
  rcases h.append with hblank | ⟨behind, rfl, hbehind⟩
  · exact (hblank.spaces hafter).skipSpace_eq
  · rw [hafter.skipSpace_append, hbehind.singleton]
    rfl

theorem Cut.boundary (h : Cut cut w) (hw : Boundary w) : Boundary cut := by
  obtain ⟨c, rest, rfl⟩ := h
  cases cut with
  | nil => exact boundary_nil
  | cons d cut => exact hw

/-- What is left begins like the whole text, or is blank. -/
theorem Cut.starts (h : Cut cut w) (hw : skipSpace w = c :: v) :
    skipSpace cut = [] ∨ ∃ v', skipSpace cut = c :: v' := by
  obtain ⟨d, rest, rfl⟩ := h
  cases hcut : skipSpace cut with
  | nil => exact .inl rfl
  | cons e v' =>
    rw [skipSpace_append hcut] at hw
    obtain ⟨rfl, -⟩ := List.cons.inj hw
    exact .inr ⟨v', rfl⟩

end Cut

/-- The reading runs into the end of the text, or takes all of it. -/
def RunsOut (read : Except Fault (α × List Char)) : Prop :=
  read = .error .truncated ∨ ∃ a left, read = .ok (a, left) ∧ skipSpace left = []

theorem RunsOut.bind {β : Type} {read : Except Fault (α × List Char)}
    {f : α × List Char → Except Fault β} (h : RunsOut read)
    (hf : ∀ a left, skipSpace left = [] → f (a, left) = .error .truncated) :
    read >>= f = .error .truncated := by
  rcases h with rfl | ⟨a, left, rfl, hleft⟩
  · rfl
  · exact hf a left hleft

theorem RunsOut.map {β : Type} {read : Except Fault (α × List Char)} {f : α → β}
    (h : RunsOut read) : RunsOut (do let (a, s) ← read; return (f a, s)) := by
  rcases h with rfl | ⟨a, left, rfl, hleft⟩
  · exact .inl rfl
  · exact .inr ⟨f a, left, rfl, hleft⟩

/-- Wherever the text `w` is cut, reading what is left of it runs out of text. -/
def Breaks (value : Reader α) (w : List Char) : Prop :=
  ∀ cut s, Cut cut w → skipSpace s = skipSpace cut → RunsOut (value s)

/-- Wherever the text `w` is cut, reading what is left of it comes to the end of the text too
early. -/
def Truncates (value : Reader α) (w : List Char) : Prop :=
  ∀ cut s, Cut cut w → skipSpace s = skipSpace cut → value s = .error .truncated

theorem Truncates.breaks {value : Reader α} {w : List Char} (h : Truncates value w) :
    Breaks value w :=
  fun cut s hcut hs => .inl (h cut s hcut hs)

theorem Breaks.spaces_append {value : Reader α} {before w : List Char} (h : Breaks value w)
    (hw : w ≠ []) (hbefore : Spaces before) : Breaks value (before ++ w) := by
  intro cut s hcut hs
  rcases hcut.append with hblank | ⟨cut', rfl, hcut'⟩
  · rw [(hblank.spaces hbefore).skipSpace_eq] at hs
    exact h [] s (.nil hw) hs
  · rw [hbefore.skipSpace_append] at hs
    exact h cut' s hcut' hs

section Quoted

/-- Cut short, an escape by number has less than four places left. -/
theorem readQuoted_cut_unit {a b c d : Char} {cut : List Char} (ha : a.utf8Size = 1)
    (hb : b.utf8Size = 1) (hc : c.utf8Size = 1) (h : Cut cut ['\\', 'u', a, b, c, d]) :
    readQuoted cut = .error .truncated := by
  have hshort (s : List Char) (hs : byteCount s < 4) :
      (.error (shortUnit s) : Except Fault (List Char × List Char)) = .error .truncated :=
    congrArg Except.error (if_pos hs)
  obtain ⟨n, hn, rfl⟩ := h.exists_take
  match n, hn with
  | 0, _ => rfl
  | 1, _ => rfl
  | 2, _ => rfl
  | 3, _ => exact hshort [a] (by simp [byteCount, ha])
  | 4, _ => exact hshort [a, b] (by simp [byteCount, ha, hb])
  | 5, _ => exact hshort [a, b, c] (by simp [byteCount, ha, hb, hc])
  | n + 6, hn => exact absurd hn (Nat.not_lt.mpr (Nat.le_add_left 6 n))

theorem readQuoted_cut_escape {c : Char} {cut : List Char} (h : Cut cut (escape c)) :
    readQuoted cut = .error .truncated := by
  have hletter {e : Char} {cut : List Char} (h : Cut cut ['\\', e]) :
      readQuoted cut = .error .truncated := by
    rcases h.cons with rfl | ⟨cut', rfl, hcut'⟩
    · rfl
    · rw [hcut'.singleton]
      rfl
  unfold escape at h
  split at h
  all_goals try exact hletter h
  next =>
    split at h
    · next hcontrol =>
      have hsize : ∀ n < 2, (Nat.digitChar n).utf8Size = 1 := by decide
      exact readQuoted_cut_unit rfl rfl (hsize _ (by omega)) h
    · rw [h.singleton]
      rfl

theorem readQuoted_cut {s cut : List Char} (h : Cut cut (s.flatMap escape ++ ['"'])) :
    readQuoted cut = .error .truncated := by
  induction s generalizing cut with
  | nil =>
    rw [h.singleton]
    rfl
  | cons c s ih =>
    rw [List.flatMap_cons, List.append_assoc] at h
    rcases h.append with hescape | ⟨cut', rfl, hcut'⟩
    · exact readQuoted_cut_escape hescape
    · rw [readQuoted_escape, ih hcut']
      rfl

namespace Truncates

theorem string (text : String) : Truncates readString (quote text.toList) := by
  intro cut s hcut hs
  rw [quote, List.cons_append] at hcut
  unfold readString
  rcases hcut.cons with rfl | ⟨cut', rfl, hcut'⟩
  · rw [hs]
    rfl
  · rw [hs, skipSpace_cons rfl]
    change (readQuoted cut' >>= _) = _
    rw [readQuoted_cut hcut']
    rfl

theorem text {ε : Type} (parse : String → Except ε α) (text : String) :
    Truncates (readText parse) (quote text.toList) := by
  intro cut s hcut hs
  rw [readText, string text cut s hcut hs]
  rfl

end Truncates

end Quoted

namespace Breaks

/-- Without their last places, the digits of a number are those of a smaller one. -/
theorem exists_toDigits_of_append {n : Nat} {ds rest : List Char} (hne : ds ≠ [])
    (h : Nat.toDigits 10 n = ds ++ rest) : ∃ m ≤ n, ds = Nat.toDigits 10 m := by
  induction n using Nat.strongRecOn generalizing ds rest with
  | _ n ih =>
    rcases List.eq_nil_or_concat rest with rfl | ⟨rest, c, rfl⟩
    · rw [List.append_nil] at h
      exact ⟨n, Nat.le_refl n, h.symm⟩
    · by_cases hn : n < 10
      · rw [Nat.toDigits_of_lt_base hn] at h
        obtain ⟨d, ds, rfl⟩ := List.exists_cons_of_ne_nil hne
        have hlength := congrArg List.length h
        simp at hlength
      · rw [Nat.toDigits_of_base_le (by decide) (Nat.le_of_not_lt hn), List.concat_eq_append,
          ← List.append_assoc] at h
        obtain ⟨hupper, -⟩ := List.append_inj' h rfl
        obtain ⟨m, hm, hds⟩ := ih (n / 10) (Nat.div_lt_self (by omega) (by decide)) hne hupper
        exact ⟨m, Nat.le_trans hm (Nat.div_le_self n 10), hds⟩

theorem count (n : UInt64) : Breaks readCount (Nat.toDigits 10 n.toNat) := by
  rintro cut s ⟨c, rest, hcut⟩ hs
  by_cases hne : cut = []
  · refine .inl ?_
    rw [readCount, hs, hne]
    rfl
  · obtain ⟨m, hm, rfl⟩ := exists_toDigits_of_append hne hcut
    have hlt : m < UInt64.size := Nat.lt_of_le_of_lt hm n.toNat_lt
    have hread := Reads.count (.ofNat m)
    rw [UInt64.toNat_ofNat_of_lt' hlt] at hread
    obtain ⟨left, hleft, hok⟩ := hread.reads s [] (by rw [List.append_nil, hs]) boundary_nil
    exact .inr ⟨_, left, hok, hleft⟩

/-- A string is never taken for the mark of an absent value. -/
theorem present {value : Reader α} {text : String} (h : Breaks value (quote text.toList)) :
    Breaks (readOption value) (quote text.toList) := by
  intro cut s hcut hs
  have hread : readOption value s = (do
      let (a, s) ← value (skipSpace s)
      return (some a, s)) := by
    unfold readOption
    split
    · next hn =>
      rcases hcut.starts (c := '"') (skipSpace_cons rfl _) with hblank | ⟨v, hquote⟩
      · rw [hs, hblank] at hn
        cases hn
      · rw [hs, hquote] at hn
        cases hn
    · rfl
  rw [hread]
  exact (h cut (skipSpace s) hcut (by rw [skipSpace_idem, hs])).map

end Breaks

section Elements

variable {element : Reader α}

theorem nextElement_blank {isFirst : Bool} {s t : List Char}
    (hs : skipSpace s = skipSpace (comma isFirst ++ t)) (ht : skipSpace t = []) :
    nextElement isFirst s = .error .truncated := by
  unfold nextElement
  cases isFirst with
  | true => rw [hs.trans ht]
  | false =>
    have hcomma : skipSpace s = ',' :: t := hs
    rw [hcomma]
    split
    · rfl
    · next hclosed => exact absurd (List.cons.inj hclosed).1 (by decide)
    · next hpart =>
      obtain ⟨rfl, rfl⟩ := List.cons.inj hpart
      rw [if_neg Bool.false_ne_true, if_pos rfl, ht]

theorem readElements_blank (steps : List Char) {isFirst : Bool} {s : List Char}
    (hs : skipSpace s = []) : readElements element steps isFirst s = .error .truncated := by
  cases steps with
  | nil => rfl
  | cons mark steps =>
    unfold readElements nextElement
    rw [hs]
    rfl

/-- The elements in front of the cut are read, and the one that is cut runs out of text. -/
theorem readElements_cut {ws : List (List Char)} {as : List α}
    (h : List.Forall₂ (Reads element) ws as) (hbreaks : ∀ w ∈ ws, Breaks element w)
    {after : List Char} (hafter : Spaces after) {steps : List Char} {isFirst : Bool}
    {cut s : List Char} (hcut : Cut cut (separated isFirst ws ++ (after ++ [']'])))
    (hs : skipSpace s = skipSpace cut) :
    readElements element steps isFirst s = .error .truncated := by
  induction h generalizing steps isFirst cut s with
  | nil => exact readElements_blank steps (hs.trans (hcut.blank hafter))
  | @cons w a ws as hw hws ih =>
    obtain ⟨hbreak, hbreaks⟩ := List.forall_mem_cons.mp hbreaks
    obtain ⟨c, u, hstart, hc⟩ := hw.starts
    cases steps with
    | nil => rfl
    | cons mark steps =>
    rw [separated, List.append_assoc, List.append_assoc] at hcut
    rcases hcut.append with hcomma | ⟨behind, rfl, hbehind⟩
    · have hblank : skipSpace cut = [] := by
        cases isFirst with
        | true => exact absurd hcomma not_cut_nil
        | false => rw [hcomma.singleton]; rfl
      exact readElements_blank _ (hs.trans hblank)
    rcases hbehind.append with helement | ⟨behind', rfl, hbehind'⟩
    · rcases helement.starts hstart with hblank | ⟨v, hv⟩
      · rw [readElements, nextElement_blank hs hblank]
        rfl
      · have hpart := hbreak behind (c :: v) helement (skipSpace_of_start hv)
        rw [readElements, nextElement_part hs hv hc]
        exact hpart.bind fun a left hleft =>
          bind_eq_error_iff.mpr (.inl (readElements_blank steps hleft))
    · have hboundary := hbehind'.boundary (boundary_separated ws hafter (.inl rfl) [])
      have hpart := skipSpace_append hstart behind'
      obtain ⟨left, hleft, hread⟩ :=
        hw.reads (c :: (u ++ behind')) behind' (skipSpace_of_start hpart) hboundary
      -- This element is whole, so the cut is behind it and the induction goes on there.
      rw [readElements, nextElement_part hs hpart hc]
      refine bind_eq_error_iff.mpr (.inr ⟨_, rfl, ?_⟩)
      refine bind_eq_error_iff.mpr (.inr ⟨_, hread, ?_⟩)
      exact bind_eq_error_iff.mpr (.inl (ih hbreaks hbehind' hleft))

theorem Truncates.list {ws : List (List Char)} {as : List α}
    (h : List.Forall₂ (Reads element) ws as) (hbreaks : ∀ w ∈ ws, Breaks element w)
    {after : List Char} (hafter : Spaces after) :
    Truncates (readList element) ('[' :: (separated true ws ++ (after ++ [']']))) := by
  intro cut s hcut hs
  unfold readList
  rcases hcut.cons with rfl | ⟨behind, rfl, hbehind⟩
  · rw [hs]
    rfl
  · rw [hs, skipSpace_cons rfl]
    exact readElements_cut h hbreaks hafter hbehind rfl

end Elements

namespace Shape

variable {fields : List (Field δ)}

theorem nextKey_blank {isFirst : Bool} {s t : List Char}
    (hs : skipSpace s = skipSpace (comma isFirst ++ t)) (ht : skipSpace t = []) :
    nextKey isFirst s = .error .truncated := by
  unfold nextKey
  cases isFirst with
  | true => rw [hs.trans ht]
  | false =>
    have hcomma : skipSpace s = ',' :: t := hs
    rw [hcomma]
    change (expect ['"'] (skipSpace t)).map Next.part = _
    rw [ht]
    rfl

theorem readMembers_blank (steps : List Char) {isFirst : Bool} {d : δ} {s : List Char}
    (hs : skipSpace s = []) : readMembers fields steps isFirst d s = .error .truncated := by
  cases steps with
  | nil => rfl
  | cons mark steps =>
    unfold readMembers nextKey
    rw [hs]
    rfl

/-- Wherever the member written as `w` is cut, reading what is left of it runs out of text. -/
def BreaksMember (fields : List (Field δ)) (w : List Char) (d : δ) : Prop :=
  ∀ cut, Cut cut w → skipSpace cut = [] ∨ ∃ s, skipSpace cut = '"' :: s ∧
    RunsOut (do
      let (key, s) ← readQuoted s
      readMember fields (String.ofList key) d s)

/-- The members written as `ws` can be read one after the other from the draft `d` on, and the one
that is cut runs out of text. -/
inductive BreaksAll (fields : List (Field δ)) : List (List Char) → δ → Prop
  | nil (d : δ) : BreaksAll fields [] d
  | cons {w : List Char} {ws : List (List Char)} {d d' : δ} :
    Fills fields w d d' → BreaksMember fields w d → BreaksAll fields ws d' →
    BreaksAll fields (w :: ws) d

theorem BreaksMember.of_field {key : String} {field : Field δ} {lead gap v : List Char} {d : δ}
    (hfind : fields.find? (·.key = key) = some field) (hempty : field.isFilled d = false)
    (hlead : Spaces lead) (hgap : Spaces gap) (hv : Breaks (field.read d) v) :
    BreaksMember fields (lead ++ (quote key.toList ++ (gap ++ ':' :: v))) d := by
  intro cut hcut
  rcases hcut.append with hblank | ⟨member, rfl, hmember⟩
  · exact .inl (hblank.spaces hlead).skipSpace_eq
  rw [hlead.skipSpace_append]
  rcases hmember.append with hkey | ⟨behind, rfl, hbehind⟩
  · rw [quote, List.cons_append] at hkey
    rcases hkey.cons with rfl | ⟨letters, rfl, hletters⟩
    · exact .inl rfl
    · refine .inr ⟨letters, skipSpace_cons rfl _, .inl ?_⟩
      rw [readQuoted_cut hletters]
      rfl
  refine .inr ⟨_, by rw [quote_append, skipSpace_cons rfl], ?_⟩
  rw [readQuoted_quote]
  change RunsOut (readMember fields (String.ofList key.toList) d behind)
  rw [String.ofList_toList, readMember_field hfind hempty]
  rcases hbehind.append with hblank | ⟨colon, rfl, hcolon⟩
  · refine .inl ?_
    rw [takeColon, (hblank.spaces hgap).skipSpace_eq]
    rfl
  rcases hcolon.cons with rfl | ⟨value, rfl, hvalue⟩
  · refine .inl ?_
    rw [takeColon, hgap.skipSpace_append]
    rfl
  · rw [takeColon_append hgap]
    exact hv value value hvalue rfl

/-- The members in front of the cut are read, and the one that is cut runs out of text. -/
theorem readMembers_cut {ws : List (List Char)} {d : δ} (h : BreaksAll fields ws d)
    {after : List Char} (hafter : Spaces after) {steps : List Char} {isFirst : Bool}
    {cut s : List Char} (hcut : Cut cut (separated isFirst ws ++ (after ++ ['}'])))
    (hs : skipSpace s = skipSpace cut) :
    readMembers fields steps isFirst d s = .error .truncated := by
  induction h generalizing steps isFirst cut s with
  | nil => exact readMembers_blank steps (hs.trans (hcut.blank hafter))
  | @cons w ws d d' hw hbreak hws ih =>
    obtain ⟨u, hstart⟩ := hw.starts
    cases steps with
    | nil => rfl
    | cons mark steps =>
    rw [separated, List.append_assoc, List.append_assoc] at hcut
    rcases hcut.append with hcomma | ⟨behind, rfl, hbehind⟩
    · have hblank : skipSpace cut = [] := by
        cases isFirst with
        | true => exact absurd hcomma not_cut_nil
        | false => rw [hcomma.singleton]; rfl
      exact readMembers_blank _ (hs.trans hblank)
    rcases hbehind.append with hmember | ⟨behind', rfl, hbehind'⟩
    · rcases hbreak behind hmember with hblank | ⟨v, hv, hread⟩
      · rw [readMembers, nextKey_blank hs hblank]
        rfl
      · rw [readMembers, nextKey_part hs hv]
        have hbound := hread.bind (f := fun (d, s) => readMembers fields steps false d s)
          fun d' left hleft => readMembers_blank steps hleft
        rwa [bind_assoc] at hbound
    · have hboundary := hbehind'.boundary (boundary_separated ws hafter (.inr rfl) [])
      have hpart := skipSpace_append hstart behind'
      obtain ⟨key, t, hkey, left, hleft, hread⟩ := hw.fills _ _ hpart hboundary
      rw [readMembers, nextKey_part hs hpart]
      refine bind_eq_error_iff.mpr (.inr ⟨_, rfl, ?_⟩)
      refine bind_eq_error_iff.mpr (.inr ⟨_, hkey, ?_⟩)
      exact bind_eq_error_iff.mpr (.inr ⟨_, hread, ih hbehind' hleft⟩)

end Shape

theorem Truncates.object {shape : Shape δ α} {ws : List (List Char)}
    (h : Shape.BreaksAll shape.fields ws shape.blank) {after : List Char} (hafter : Spaces after) :
    Truncates shape.read ('{' :: (separated true ws ++ (after ++ ['}']))) := by
  intro cut s hcut hs
  unfold Shape.read
  rcases hcut.cons with rfl | ⟨behind, rfl, hbehind⟩
  · rw [hs]
    rfl
  · rw [hs, skipSpace_cons rfl]
    change (Shape.readMembers shape.fields behind true shape.blank behind >>= _) = _
    rw [Shape.readMembers_cut h hafter hbehind rfl]
    rfl

/-- Written in whatever layout and at whatever depth, the value `v` runs out of text when cut. -/
def Fragile (value : Reader α) (v : Json) : Prop :=
  ∀ layout depth, Breaks value (v.write layout depth)

namespace Fragile

theorem string (text : String) : Fragile readString (.string text) := by
  intro layout depth
  rw [write]
  exact (Truncates.string text).breaks

theorem text {ε : Type} (parse : String → Except ε α) (text : String) :
    Fragile (readText parse) (.string text) := by
  intro layout depth
  rw [write]
  exact (Truncates.text parse text).breaks

theorem count (n : UInt64) : Fragile readCount (.integer n.toNat) := by
  intro layout depth
  rw [write]
  exact Breaks.count n

theorem present {value : Reader α} {text : String} (h : Fragile value (.string text)) :
    Fragile (readOption value) (.string text) := by
  intro layout depth
  have hbreaks := h layout depth
  rw [write] at hbreaks ⊢
  exact hbreaks.present

theorem list_map {element : Reader α} {f : α → Json} {as : List α}
    (hread : ∀ a ∈ as, Recovers element (f a) a) (hbreak : ∀ a ∈ as, Fragile element (f a)) :
    Fragile (readList element) (.array (as.map f)) := by
  intro layout depth
  obtain ⟨after, hafter, hwrite⟩ := write_array layout depth (as.map f)
  have hlead := spaces_lineBreak layout (depth + 1)
  rw [hwrite]
  rw [List.map_map]
  have helements : List.Forall₂ (Reads element)
      (as.map (writeElement layout (depth + 1) ∘ f)) as := by
    refine List.forall₂_map_left_iff.mpr (List.forall₂_same.mpr fun a ha => ?_)
    have hsurrounded := (hread a ha layout (depth + 1)).surrounded hlead spaces_nil
    rwa [List.append_nil] at hsurrounded
  refine (Truncates.list helements ?_ hafter).breaks
  refine List.forall_mem_map.mpr fun a ha => ?_
  exact (hbreak a ha layout (depth + 1)).spaces_append (hread a ha layout (depth + 1)).ne_nil hlead

theorem ofSlot {key : String} {slot : δ → Option α} {fill : δ → α → δ} {value : Reader α}
    {v : Json} (h : Fragile value v) (d : δ) :
    Fragile ((Field.ofSlot key slot fill value).read d) v :=
  fun layout depth cut s hcut hs => (h layout depth cut s hcut hs).map

end Fragile

namespace Shape

theorem BreaksMember.of_written {fields : List (Field δ)} {key : String} {v : Json}
    {field : Field δ} {d : δ} (hfind : fields.find? (·.key = key) = some field)
    (hempty : field.isFilled d = false) (hne : ∀ layout depth, v.write layout depth ≠ [])
    (hv : Fragile (field.read d) v) (layout : Layout) (depth : Nat) :
    BreaksMember fields (writeMember layout depth (key, v)) d := by
  have hlead := spaces_lineBreak layout depth
  cases layout with
  | compact => exact .of_field hfind hempty hlead spaces_nil (hv .compact depth)
  | pretty =>
    have hspace : Spaces [' '] := List.forall_mem_singleton.mpr rfl
    exact .of_field hfind hempty hlead spaces_nil
      ((hv .pretty depth).spaces_append (hne .pretty depth) hspace)

/-- The value of the member runs out of text when cut, in whatever draft it is read. -/
def FragileMember (fields : List (Field δ)) (m : String × Json) : Prop :=
  ∀ field, fields.find? (·.key = m.1) = some field → ∀ d, Fragile (field.read d) m.2

theorem FragileMember.of_find {fields : List (Field δ)} {key : String} {v : Json}
    {field : Field δ} (hfind : fields.find? (·.key = key) = some field)
    (hv : ∀ d, Fragile (field.read d) v) : FragileMember fields (key, v) := by
  intro found hfound
  obtain rfl := Option.some.inj (hfind.symm.trans hfound)
  exact hv

theorem Filled.breaksAll {fields : List (Field δ)} {ms : List (String × Json)} {d d' : δ}
    (h : Filled fields ms d d') (hbreak : ∀ m ∈ ms, FragileMember fields m) (layout : Layout)
    (depth : Nat) :
    BreaksAll fields (ms.map (writeMember layout depth)) d := by
  induction h with
  | nil d => exact .nil d
  | @cons key v ms field d d' d'' hfind hempty hv hms ih =>
    obtain ⟨hfirst, hbreak⟩ := List.forall_mem_cons.mp hbreak
    refine .cons (.of_written hfind hempty hv layout depth) ?_ (ih hbreak)
    exact .of_written hfind hempty (fun layout depth => (hv layout depth).ne_nil)
      (hfirst field hfind d) layout depth

end Shape

/-- An object is not at its end before its last bracket, so a cut leaves no value. -/
theorem Truncates.object_write {shape : Shape δ α} {ms : List (String × Json)} {d : δ}
    (h : Shape.Filled shape.fields ms shape.blank d)
    (hbreak : ∀ m ∈ ms, Shape.FragileMember shape.fields m) (layout : Layout) (depth : Nat) :
    Truncates shape.read ((Json.object ms).write layout depth) := by
  obtain ⟨after, hafter, hwrite⟩ := write_object layout depth ms
  rw [hwrite]
  exact .object (h.breaksAll hbreak layout (depth + 1)) hafter

/-- The text `cut` is how `whole` begins, and not all of it. -/
def ProperPrefix (cut whole : String) : Prop := cut.toList <+: whole.toList ∧ cut ≠ whole

instance (cut whole : String) : Decidable (ProperPrefix cut whole) :=
  inferInstanceAs (Decidable (cut.toList <+: whole.toList ∧ cut ≠ whole))

theorem ProperPrefix.cut {cut whole : String} (h : ProperPrefix cut whole) :
    Cut cut.toList whole.toList := by
  obtain ⟨⟨rest, hrest⟩, hne⟩ := h
  cases rest with
  | nil => exact absurd (String.toList_injective (by rw [← hrest, List.append_nil])) hne
  | cons c rest => exact ⟨c, rest, hrest.symm⟩

theorem Truncates.readDocument {value : Reader α} {v : Json} {layout : Layout}
    (h : Truncates value (v.write layout 0)) {cut : String}
    (hcut : ProperPrefix cut (v.text layout)) : readDocument value cut = .error .truncated := by
  have hbegin := hcut.cut
  rw [Json.text, String.toList_ofList] at hbegin
  exact bind_eq_error_iff.mpr (.inl (h _ _ hbegin rfl))

end ClaimTree.Json
