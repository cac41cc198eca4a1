import ClaimTree.Proofs.Json.JudgedShape

namespace ClaimTree.Json

variable {δ α : Type}

/-- A member of an object: its key, a way to write the key, and the text of its value. -/
structure Member where
  key : String
  spelling : List Char
  spelled : Spelled spelling key.toList
  value : List Char

def Member.text (m : Member) : List Char × List Char := (m.spelling, m.value)

/-- The members of an object in the order in which they are written. Besides those that it is made
of there are others that repeat the key of a field, and others with keys that are no field names. -/
structure Arrangement (shape : Shape δ α) (own : List Member) where
  members : List Member
  repeated : List Member
  foreign : List Member
  perm : members.Perm (own ++ (repeated ++ foreign))
  known : ∀ m ∈ repeated, ∃ field, shape.fields.find? (·.key = m.key) = some field
  repeats : ∀ m ∈ repeated, 2 ≤ (members.map Member.key).count m.key
  unknown : ∀ m ∈ foreign, shape.fields.find? (·.key = m.key) = none
  wellFormed : ∀ m ∈ repeated ++ foreign, WellFormed m.value
  /-- One that stands in front of all others with its key is not malformed for the field. -/
  leading : ∀ front m back, members = front ++ m :: back → m ∈ repeated →
    (∀ m' ∈ front, m'.key ≠ m.key) →
    ∀ field, shape.fields.find? (·.key = m.key) = some field →
      readDocument (field.read shape.blank) (String.ofList m.value) ≠ .error .malformed

/-- The text of an object with these members. -/
def Arrangement.Text {shape : Shape δ α} {own : List Member} (a : Arrangement shape own)
    (w : List Char) : Prop :=
  ObjectText (a.members.map Member.text) w

/-- The member has the key of a field. -/
def Shape.knows (shape : Shape δ α) (m : Member) : Bool :=
  (shape.fields.find? (·.key = m.key)).isSome

section Reading

variable {shape : Shape δ α} {own : List Member} {state : List String → δ}

/-- The member has the key of this field, and reading its value there does to a draft what `put`
does. -/
structure Shape.Puts (shape : Shape δ α) (m : Member) (field : Field δ) (put : δ → δ) : Prop where
  find : shape.fields.find? (·.key = m.key) = some field
  reads : ∀ d, Reads (field.read d) m.value (put d)

/-- Reading the member for the first time takes the draft from `state ks` on to the next state. -/
def Shape.Advances (shape : Shape δ α) (state : List String → δ) (m : Member) : Prop :=
  ∃ field put, shape.Puts m field put ∧ ∀ ks, m.key ∉ ks →
    field.isFilled (state ks) = false ∧ put (state ks) = state (m.key :: ks)

/-- When the members with keys `ks` have been read, in whatever order, the draft is `state ks`. -/
structure Shape.Tracks (shape : Shape δ α) (own : List Member) (state : List String → δ) :
    Prop where
  blank : state [] = shape.blank
  own : ∀ m ∈ own, shape.Advances state m
  foreign : ∀ key ks, shape.fields.find? (·.key = key) = none → state (key :: ks) = state ks

theorem Member.fills_foreign (m : Member) {p : List Char} (hp : MemberText m.text p)
    {fields : List (Field δ)} (hfind : fields.find? (·.key = m.key) = none)
    (hvalue : WellFormed m.value) (d : δ) : Shape.Fills fields p d d := by
  obtain ⟨lead, gap, v, hlead, hgap, ⟨before, after, hbefore, hafter, rfl⟩, rfl⟩ := hp
  refine .of_foreign m.spelled.readQuoted ?_ hlead hgap hbefore hafter hvalue
  rwa [String.ofList_toList]

theorem Member.fills_field (m : Member) {p : List Char} (hp : MemberText m.text p)
    {fields : List (Field δ)} {field : Field δ}
    (hfind : fields.find? (·.key = m.key) = some field) {d d' : δ}
    (hempty : field.isFilled d = false) (hread : Reads (field.read d) m.value d') :
    Shape.Fills fields p d d' := by
  obtain ⟨lead, gap, v, hlead, hgap, ⟨before, after, hbefore, hafter, rfl⟩, rfl⟩ := hp
  refine .of_value m.spelled.readQuoted ?_ hempty hlead hgap (hread.surrounded hbefore hafter)
  rwa [String.ofList_toList]

/-- Members with different keys are all read, whatever their order. -/
theorem Shape.Tracks.fillsAll (h : shape.Tracks own state) {ms : List Member}
    {parts : List (List Char)} (hparts : List.Forall₂ MemberText (ms.map Member.text) parts)
    (hms : ∀ m ∈ ms, m ∈ own ∨ shape.fields.find? (·.key = m.key) = none ∧ WellFormed m.value)
    {ks : List String} (hfresh : ∀ m ∈ ms, shape.knows m = true → m.key ∉ ks)
    (hnodup : ((ms.filter shape.knows).map Member.key).Nodup) :
    ∃ ks', (∀ key, key ∈ ks ∨ key ∈ ms.map Member.key → key ∈ ks') ∧
      Shape.FillsAll shape.fields parts (state ks) (state ks') := by
  -- The keys read so far tell the draft, so the induction carries them and not the draft.
  induction ms generalizing parts ks with
  | nil =>
    cases hparts
    exact ⟨ks, by simp, .nil _⟩
  | cons m ms ih =>
    obtain ⟨hm, hms⟩ := List.forall_mem_cons.mp hms
    obtain ⟨hfreshm, hfresh⟩ := List.forall_mem_cons.mp hfresh
    cases hparts with
    | @cons _ p _ parts hp hparts =>
      have hfill : Fills shape.fields p (state ks) (state (m.key :: ks)) := by
        rcases hm with hown | ⟨hfind, hvalue⟩
        · obtain ⟨field, put, hput, hstate⟩ := h.own m hown
          obtain ⟨hempty, hnext⟩ := hstate ks (hfreshm (by rw [knows, hput.find]; rfl))
          rw [← hnext]
          exact m.fills_field hp hput.find hempty (hput.reads _)
        · rw [h.foreign m.key ks hfind]
          exact m.fills_foreign hp hfind hvalue _
      have hfresh' : ∀ m' ∈ ms, shape.knows m' = true → m'.key ∉ m.key :: ks := by
        intro m' hm' hknown hmem
        rcases List.mem_cons.mp hmem with hsame | hold
        · have hknows : shape.knows m = true := by rwa [knows, ← hsame]
          rw [List.filter_cons_of_pos hknows, List.map_cons, List.nodup_cons] at hnodup
          refine hnodup.1 (List.mem_map.mpr ⟨m', List.mem_filter.mpr ⟨hm', hknown⟩, hsame⟩)
        · exact hfresh m' hm' hknown hold
      have hnodup' : ((ms.filter shape.knows).map Member.key).Nodup :=
        hnodup.sublist (((List.sublist_cons_self m ms).filter _).map _)
      obtain ⟨ks', hks', hall⟩ := ih hparts hms hfresh' hnodup'
      refine ⟨ks', fun key hkey => hks' key ?_, .cons hfill hall⟩
      rw [List.map_cons, List.mem_cons] at hkey
      rcases hkey with hold | rfl | hmem
      · exact .inl (List.mem_cons_of_mem _ hold)
      · exact .inl List.mem_cons_self
      · exact .inr hmem

/-- An object without repeated keys is read as what its own members say, whatever the order. -/
theorem Reads.arranged (h : shape.Tracks own state) (hnodup : (own.map Member.key).Nodup)
    (a : Arrangement shape own) (hnone : a.repeated = []) {value : α}
    (hcomplete : ∀ ks, (∀ m ∈ own, m.key ∈ ks) → shape.complete (state ks) = some value)
    {w : List Char} (hw : a.Text w) :
    Reads shape.read w value := by
  obtain ⟨parts, after, hparts, hafter, rfl⟩ := hw
  have hperm : a.members.Perm (own ++ a.foreign) := by
    have hall := a.perm
    rwa [hnone, List.nil_append] at hall
  have hms : ∀ m ∈ a.members, m ∈ own ∨
      shape.fields.find? (·.key = m.key) = none ∧ WellFormed m.value := by
    intro m hm
    refine (List.mem_append.mp (hperm.mem_iff.mp hm)).imp_right fun hforeign => ?_
    exact ⟨a.unknown m hforeign, a.wellFormed m (List.mem_append_right _ hforeign)⟩
  have hknown : own.filter shape.knows = own := by
    refine List.filter_eq_self.mpr fun m hm => ?_
    obtain ⟨field, put, hput, -⟩ := h.own m hm
    rw [Shape.knows, hput.find]
    rfl
  have hunknown : a.foreign.filter shape.knows = [] := by
    refine List.filter_eq_nil_iff.mpr fun m hm => ?_
    rw [Shape.knows, a.unknown m hm]
    exact Bool.false_ne_true
  have hkeys : ((a.members.filter shape.knows).map Member.key).Nodup := by
    have hfiltered := (hperm.filter shape.knows).map Member.key
    rw [List.filter_append, hknown, hunknown, List.append_nil] at hfiltered
    exact hfiltered.nodup_iff.mpr hnodup
  have hfresh : ∀ m ∈ a.members, shape.knows m = true → m.key ∉ ([] : List String) :=
    fun _ _ _ => List.not_mem_nil
  obtain ⟨ks, hks, hall⟩ := h.fillsAll hparts hms hfresh hkeys
  rw [h.blank] at hall
  refine .object hall (hcomplete ks fun m hm => hks m.key (.inr ?_)) hafter
  exact List.mem_map_of_mem (hperm.mem_iff.mpr (List.mem_append_left _ hm))

end Reading

section Refusing

variable {shape : Shape δ α} {width : Nat} {own : List Member}

/-- Reading a field fills the field and nothing else, and what is wrong with its value is the same
whatever has been read before. Arrays of `width` elements or fewer are never too long. -/
structure Shape.Lawful (shape : Shape δ α) (width : Nat) : Prop where
  blank : ∀ field ∈ shape.fields, field.isFilled shape.blank = false
  fills : ∀ field ∈ shape.fields, ∀ d s d' t, field.read d s = .ok (d', t) →
    ∀ other ∈ shape.fields,
      other.isFilled d' = (decide (other.key = field.key) || other.isFilled d)
  steady : ∀ field ∈ shape.fields, ∀ d d' s f, field.read d s = .error f →
    field.read d' s = .error f
  judges : ∀ field ∈ shape.fields, ∀ d v, WellFormed v →
    Judged (Found width v) (field.read d) v

/-- A well-formed value is malformed for a field only when there is something in it that is. -/
theorem Shape.Lawful.spoiled_of_malformed (h : shape.Lawful width) {field : Field δ}
    (hfield : field ∈ shape.fields) {d : δ} {v : List Char} (hv : WellFormed v)
    (hmalformed : readDocument (field.read d) (String.ofList v) = .error .malformed) :
    Spoiled width v := by
  have htext : (String.ofList v).toList = v := String.toList_ofList
  rcases h.judges field hfield d v hv with ⟨d', hread⟩ | ⟨f, hf, hrefuse⟩
  · rw [← htext] at hread
    rw [hread.readDocument] at hmalformed
    cases hmalformed
  · rw [← htext] at hrefuse
    rw [hrefuse.readDocument] at hmalformed
    cases hf with
    | mistyped => cases hmalformed
    | malformed hspoiled => exact hspoiled

theorem Member.refuses_filled (m : Member) {p : List Char} (hp : MemberText m.text p)
    {fields : List (Field δ)} {field : Field δ}
    (hfind : fields.find? (·.key = m.key) = some field) {d : δ}
    (hfilled : field.isFilled d = true) : Shape.RefusesMember fields p d .mistyped := by
  obtain ⟨lead, gap, v, hlead, -, -, rfl⟩ := hp
  refine .of_filled m.spelled.readQuoted ?_ hfilled hlead
  rwa [String.ofList_toList]

theorem Member.refuses_field (m : Member) {p : List Char} (hp : MemberText m.text p)
    {fields : List (Field δ)} {field : Field δ}
    (hfind : fields.find? (·.key = m.key) = some field) {d : δ} {f : Fault}
    (hempty : field.isFilled d = false) (hrefuse : Refuses (field.read d) m.value f) :
    Shape.RefusesMember fields p d f := by
  obtain ⟨lead, gap, v, hlead, hgap, ⟨before, after, hbefore, hafter, rfl⟩, rfl⟩ := hp
  refine .of_value m.spelled.readQuoted ?_ hempty hlead hgap (hrefuse.surrounded hbefore hafter)
  rwa [String.ofList_toList]

/-- One of the members has a key that stands in front of it already, or a value of the wrong kind,
when the members with keys `seen` have been read. -/
def Shape.Faulty (shape : Shape δ α) (seen : List String) (ms : List Member) : Prop :=
  ∃ front m back field, ms = front ++ m :: back ∧
    shape.fields.find? (·.key = m.key) = some field ∧
    (m.key ∈ seen ∨ m.key ∈ front.map Member.key ∨
      ∀ d, Refuses (field.read d) m.value .mistyped)

/-- A member that leads the others with its key is not malformed for its field. -/
def Shape.Leads (shape : Shape δ α) (seen : List String) (ms : List Member) : Prop :=
  ∀ front m back field, ms = front ++ m :: back → m.key ∉ seen → m.key ∉ front.map Member.key →
    shape.fields.find? (·.key = m.key) = some field →
    ∀ d, ¬Refuses (field.read d) m.value .malformed

theorem Shape.Leads.tail {seen : List String} {m : Member} {ms : List Member}
    (h : shape.Leads seen (m :: ms)) : shape.Leads (m.key :: seen) ms := by
  rintro front m' back field rfl hseen hfront hfind
  refine h (m :: front) m' back field rfl ?_ ?_ hfind
  · exact fun hmem => hseen (List.mem_cons_of_mem _ hmem)
  · rw [List.map_cons, List.mem_cons]
    rintro (hsame | hmem)
    · exact hseen (hsame ▸ List.mem_cons_self)
    · exact hfront hmem

theorem Shape.Faulty.tail {seen : List String} {m : Member} {ms : List Member}
    (h : shape.Faulty seen (m :: ms))
    (hm : ∀ field, shape.fields.find? (·.key = m.key) = some field →
      m.key ∉ seen ∧ ∃ d d', Reads (field.read d) m.value d') :
    shape.Faulty (m.key :: seen) ms := by
  obtain ⟨front, m', back, field, hsplit, hfind, hfault⟩ := h
  cases front with
  | nil =>
    obtain ⟨rfl, rfl⟩ := List.cons.inj hsplit
    obtain ⟨hseen, d, d', hread⟩ := hm field hfind
    rcases hfault with hmem | hmem | hrefuse
    · exact absurd hmem hseen
    · cases hmem
    · exact absurd (hrefuse d) (hread.not_refuses _)
  | cons first front =>
    obtain ⟨rfl, rfl⟩ := List.cons.inj hsplit
    refine ⟨front, m', back, field, rfl, hfind, ?_⟩
    rw [List.map_cons, List.mem_cons] at hfault
    rw [List.mem_cons]
    rcases hfault with hmem | (hsame | hmem) | hrefuse
    · exact .inl (.inr hmem)
    · exact .inl (.inl hsame)
    · exact .inr (.inl hmem)
    · exact .inr (.inr hrefuse)

/-- Up to the first fault every member is read. -/
theorem Shape.Lawful.exists_mistyped (h : shape.Lawful width) {ms : List Member}
    {parts : List (List Char)} (hparts : List.Forall₂ MemberText (ms.map Member.text) parts)
    (hms : ∀ m ∈ ms, shape.fields.find? (·.key = m.key) = none ∧ WellFormed m.value ∨
      ∃ field, shape.fields.find? (·.key = m.key) = some field ∧
        ∀ d, Judged (Found width m.value) (field.read d) m.value)
    {seen : List String} {d : δ}
    (hd : ∀ field ∈ shape.fields, field.isFilled d = decide (field.key ∈ seen))
    (hleads : shape.Leads seen ms) (hfaulty : shape.Faulty seen ms) :
    ∃ front p back d', parts = front ++ p :: back ∧ FillsAll shape.fields front d d' ∧
      RefusesMember shape.fields p d' .mistyped := by
  -- Which fields are filled is known from the keys in front; what they are filled with is not.
  induction ms generalizing parts seen d with
  | nil =>
    obtain ⟨front, m, back, field, hsplit, -⟩ := hfaulty
    cases front <;> cases hsplit
  | cons m ms ih =>
    obtain ⟨hm, hms⟩ := List.forall_mem_cons.mp hms
    cases hparts with
    | @cons _ p _ parts hp hparts =>
      -- The member is read and the fault is behind it, or the member is refused.
      have hnext {d' : δ} (hfill : Fills shape.fields p d d')
          (hd' : ∀ field ∈ shape.fields, field.isFilled d' = decide (field.key ∈ m.key :: seen))
          (hbehind : shape.Faulty (m.key :: seen) ms) :
          ∃ front q back d', p :: parts = front ++ q :: back ∧
            FillsAll shape.fields front d d' ∧ RefusesMember shape.fields q d' .mistyped := by
        obtain ⟨front, q, back, d'', rfl, hall, hrefuse⟩ := ih hparts hms hd' hleads.tail hbehind
        exact ⟨p :: front, q, back, d'', rfl, .cons hfill hall, hrefuse⟩
      rcases hm with ⟨hfind, hvalue⟩ | ⟨field, hfind, hjudged⟩
      · refine hnext (m.fills_foreign hp hfind hvalue d) (fun field hfield => ?_)
          (hfaulty.tail fun field hsome => by rw [hfind] at hsome; cases hsome)
        have hother : field.key ≠ m.key := by simpa using List.find?_eq_none.mp hfind field hfield
        rw [hd field hfield]
        simp [hother]
      have hfield : field ∈ shape.fields := List.mem_of_find?_eq_some hfind
      have hkey : field.key = m.key := by simpa using List.find?_some hfind
      cases hempty : field.isFilled d with
      | true => exact ⟨[], p, parts, d, rfl, .nil d, m.refuses_filled hp hfind hempty⟩
      | false =>
        have hfresh : m.key ∉ seen := by
          rw [hd field hfield, hkey] at hempty
          exact of_decide_eq_false hempty
        rcases hjudged d with ⟨d', hread⟩ | ⟨f, hf, hrefuse⟩
        · obtain ⟨left, -, hok⟩ := hread.reads m.value [] (by rw [List.append_nil]) boundary_nil
          refine hnext (m.fills_field hp hfind hempty hread) (fun other hother => ?_)
            (hfaulty.tail fun found hfound => ?_)
          · rw [h.fills field hfield d m.value d' left hok other hother, hd other hother, hkey]
            simp
          · obtain rfl := Option.some.inj (hfind.symm.trans hfound)
            exact ⟨hfresh, d, d', hread⟩
        · cases hf with
          | malformed _ =>
            exact absurd hrefuse (hleads [] m ms field rfl hfresh (List.not_mem_nil) hfind d)
          | mistyped =>
            exact ⟨[], p, parts, d, rfl, .nil d, m.refuses_field hp hfind hempty hrefuse⟩

/-- Where a key stands twice there is a member behind another one with its key. -/
theorem exists_repeat {ms : List Member} {key : String}
    (h : 2 ≤ (ms.map Member.key).count key) :
    ∃ front m back, ms = front ++ m :: back ∧ m.key = key ∧ key ∈ front.map Member.key := by
  induction ms with
  | nil => simp at h
  | cons m ms ih =>
    rw [List.map_cons, List.count_cons] at h
    by_cases hkey : m.key = key
    · have hmem : key ∈ ms.map Member.key := by
        refine List.count_pos_iff.mp ?_
        have hone : (if (m.key == key) = true then 1 else 0) ≤ 1 := by split <;> omega
        omega
      obtain ⟨m', hm', hsame⟩ := List.mem_map.mp hmem
      obtain ⟨front, back, rfl⟩ := List.append_of_mem hm'
      refine ⟨m :: front, m', back, rfl, hsame, ?_⟩
      rw [List.map_cons, hkey]
      exact List.mem_cons_self
    · have hbeq : (m.key == key) = false := beq_false_of_ne hkey
      rw [hbeq, if_neg Bool.false_ne_true, Nat.add_zero] at h
      obtain ⟨front, m', back, rfl, hsame, hmem⟩ := ih h
      exact ⟨m :: front, m', back, rfl, hsame, List.mem_cons_of_mem _ hmem⟩

theorem Arrangement.leads (h : shape.Lawful width) (a : Arrangement shape own)
    (hown : ∀ m ∈ own, ∃ field, shape.fields.find? (·.key = m.key) = some field ∧
      ∀ d, (∃ d', Reads (field.read d) m.value d') ∨ Refuses (field.read d) m.value .mistyped) :
    shape.Leads [] a.members := by
  rintro front m back field hsplit - hfront hfind d hrefuse
  have hmem : m ∈ a.members := by
    rw [hsplit]
    exact List.mem_append_right _ List.mem_cons_self
  have hread : field.read d m.value = .error .malformed :=
    hrefuse.refuses m.value [] (by rw [List.append_nil]) boundary_nil
  rcases List.mem_append.mp (a.perm.mem_iff.mp hmem) with hm | hm
  · obtain ⟨found, hfound, hjudged⟩ := hown m hm
    obtain rfl := Option.some.inj (hfind.symm.trans hfound)
    rcases hjudged d with ⟨d', hok⟩ | hmistyped
    · exact hok.not_refuses _ hrefuse
    · have hother := hmistyped.refuses m.value [] (by rw [List.append_nil]) boundary_nil
      rw [hread] at hother
      cases hother
  rcases List.mem_append.mp hm with hrepeated | hforeign
  · refine a.leading front m back hsplit hrepeated (fun m' hm' hsame => ?_) field hfind ?_
    · exact hfront (hsame ▸ List.mem_map_of_mem hm')
    · refine bind_eq_error_iff.mpr (.inl ?_)
      rw [String.toList_ofList]
      exact h.steady field (List.mem_of_find?_eq_some hfind) d shape.blank m.value _ hread
  · rw [a.unknown m hforeign] at hfind
    cases hfind

/-- An object in which a key of a field is repeated, or a field is of the wrong kind, is of the
wrong kind itself, unless something malformed stands in front. -/
theorem Refuses.arranged (h : shape.Lawful width) (a : Arrangement shape own)
    (hown : ∀ m ∈ own, ∃ field, shape.fields.find? (·.key = m.key) = some field ∧
      ∀ d, (∃ d', Reads (field.read d) m.value d') ∨ Refuses (field.read d) m.value .mistyped)
    (hfault : a.repeated ≠ [] ∨ ∃ m ∈ own, ∃ field,
      shape.fields.find? (·.key = m.key) = some field ∧
        ∀ d, Refuses (field.read d) m.value .mistyped)
    {w : List Char} (hw : a.Text w) : Refuses shape.read w .mistyped := by
  obtain ⟨parts, after, hparts, hafter, rfl⟩ := hw
  have hms : ∀ m ∈ a.members, shape.fields.find? (·.key = m.key) = none ∧ WellFormed m.value ∨
      ∃ field, shape.fields.find? (·.key = m.key) = some field ∧
        ∀ d, Judged (Found width m.value) (field.read d) m.value := by
    intro m hm
    rcases List.mem_append.mp (a.perm.mem_iff.mp hm) with hm | hm
    · obtain ⟨field, hfind, hjudged⟩ := hown m hm
      exact .inr ⟨field, hfind, fun d => (hjudged d).imp_right fun hrefuse =>
        ⟨.mistyped, .mistyped, hrefuse⟩⟩
    have hvalue := a.wellFormed m hm
    rcases List.mem_append.mp hm with hrepeated | hforeign
    · obtain ⟨field, hfind⟩ := a.known m hrepeated
      exact .inr ⟨field, hfind,
        fun d => h.judges field (List.mem_of_find?_eq_some hfind) d m.value hvalue⟩
    · exact .inl ⟨a.unknown m hforeign, hvalue⟩
  have hfaulty : shape.Faulty [] a.members := by
    rcases hfault with hrepeated | ⟨m, hm, field, hfind, hrefuse⟩
    · obtain ⟨m, repeated, hcons⟩ := List.exists_cons_of_ne_nil hrepeated
      have hm : m ∈ a.repeated := hcons ▸ List.mem_cons_self
      obtain ⟨field, hfind⟩ := a.known m hm
      obtain ⟨front, m₂, back, hsplit, hkey, hmem⟩ := exists_repeat (a.repeats m hm)
      rw [← hkey] at hfind
      exact ⟨front, m₂, back, field, hsplit, hfind, .inr (.inl (hkey ▸ hmem))⟩
    · have hmem : m ∈ a.members := a.perm.mem_iff.mpr (List.mem_append_left _ hm)
      obtain ⟨front, back, hsplit⟩ := List.append_of_mem hmem
      exact ⟨front, m, back, field, hsplit, hfind, .inr (.inr hrefuse)⟩
  obtain ⟨front, p, back, d, rfl, hall, hrefuse⟩ := h.exists_mistyped hparts hms
    (fun field hfield => h.blank field hfield) (a.leads h hown) hfaulty
  exact .object hall hrefuse hafter

end Refusing

section Field

variable {key : String} {slot : δ → Option α} {fill : δ → α → δ} {value : Reader α}

theorem Field.ofSlot_read_eq_ok_iff {d d' : δ} {s t : List Char} :
    (ofSlot key slot fill value).read d s = .ok (d', t) ↔
      ∃ a, value s = .ok (a, t) ∧ fill d a = d' := by
  change (value s >>= _) = _ ↔ _
  rw [bind_eq_ok_iff]
  constructor
  · rintro ⟨⟨a, s⟩, hread, heq⟩
    obtain ⟨rfl, rfl⟩ := Prod.mk.inj (Except.ok.inj heq)
    exact ⟨a, hread, rfl⟩
  · rintro ⟨a, hread, rfl⟩
    exact ⟨(a, t), hread, rfl⟩

theorem Field.ofSlot_read_eq_error_iff {d : δ} {s : List Char} {f : Fault} :
    (ofSlot key slot fill value).read d s = .error f ↔ value s = .error f := by
  change (value s >>= _) = _ ↔ _
  rw [bind_eq_error_iff]
  constructor
  · rintro (hread | ⟨_, -, heq⟩)
    · exact hread
    · cases heq
  · exact .inl

theorem Refuses.ofSlot {v : List Char} {f : Fault} (h : Refuses value v f) (d : δ) :
    Refuses ((Field.ofSlot key slot fill value).read d) v f where
  starts := h.starts
  refuses s rest hs hrest := Field.ofSlot_read_eq_error_iff.mpr (h.refuses s rest hs hrest)

theorem Judged.ofSlot {among : Fault → Prop} {v : List Char} (h : Judged among value v) (d : δ) :
    Judged among ((Field.ofSlot key slot fill value).read d) v := by
  rcases h with ⟨a, hread⟩ | ⟨f, hf, hrefuse⟩
  · exact .inl ⟨fill d a, hread.ofSlot d⟩
  · exact .inr ⟨f, hf, hrefuse.ofSlot d⟩

theorem Shape.Advances.ofSlot {β : Type} {shape : Shape δ β} {state : List String → δ} {m : Member}
    {a : α} (hkey : m.key = key)
    (hfind : shape.fields.find? (·.key = key) = some (.ofSlot key slot fill value))
    (h : Reads value m.value a)
    (hstate : ∀ ks, key ∉ ks → (slot (state ks)).isSome = false ∧
      fill (state ks) a = state (key :: ks)) :
    shape.Advances state m := by
  subst hkey
  exact ⟨_, fun d => fill d a, ⟨hfind, fun d => h.ofSlot d⟩, hstate⟩

end Field

end ClaimTree.Json
