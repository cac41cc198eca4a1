import ClaimTree.Command.Basic
import ClaimTree.Proofs.Batch.Document
import ClaimTree.Proofs.Json.Arrangement

namespace ClaimTree

open Json

namespace Json

/-- A string that stands for `text`, with whatever escapes. -/
def StringText (text : String) (w : List Char) : Prop :=
  ∃ s, Spelled s text.toList ∧ w = '"' :: (s ++ ['"'])

def NullableText (text : Option String) (w : List Char) : Prop :=
  match text with
  | none => w = ['n', 'u', 'l', 'l']
  | some text => StringText text w

def StringsText (texts : List String) (w : List Char) : Prop :=
  ∃ vs, List.Forall₂ StringText texts vs ∧ ArrayText vs w

def CountText (n : UInt64) (w : List Char) : Prop := w = Nat.toDigits 10 n.toNat

theorem CountText.reads {n : UInt64} {w : List Char} (h : CountText n w) :
    Reads readCount w n := by
  rw [show w = _ from h]
  exact .count n

theorem StringText.reads {text : String} {w : List Char} (h : StringText text w) :
    Reads readString w text := by
  obtain ⟨s, hs, rfl⟩ := h
  have hread := Reads.of_quoted hs.readQuoted
  rwa [String.ofList_toList] at hread

theorem NullableText.reads {text : Option String} {w : List Char} (h : NullableText text w) :
    Reads (readOption readString) w text := by
  cases text with
  | none =>
    obtain rfl : w = _ := h
    exact .absent readString
  | some text =>
    have hread : Reads readString w text := StringText.reads h
    refine hread.present fun t ht => ?_
    obtain ⟨s, -, rfl⟩ := h
    rw [skipSpace_cons rfl] at ht
    exact absurd (List.cons.inj ht).1 (by decide)

theorem StringsText.reads {texts : List String} {w : List Char} (h : StringsText texts w) :
    Reads (readList readString) w texts := by
  obtain ⟨vs, hvs, hw⟩ := h
  refine .array hw ?_
  exact List.Forall₂.flip (hvs.imp fun _ _ htext => htext.reads)

/-- The member has this key, and its value is written as `text` says. -/
def Gives (key : String) (text : List Char → Prop) (m : Member) : Prop := m.key = key ∧ text m.value

/-- There is one such member, or none where it would only tell that nothing is there. -/
def MayOmit (isAbsent : Prop) (gives : Member → Prop) (ms : List Member) : Prop :=
  isAbsent ∧ ms = [] ∨ ∃ m, gives m ∧ ms = [m]

theorem MayOmit.gives {isAbsent : Prop} {gives : Member → Prop} {ms : List Member}
    (h : MayOmit isAbsent gives ms) : ∀ m ∈ ms, gives m := by
  rcases h with ⟨-, rfl⟩ | ⟨m, hm, rfl⟩
  · exact nofun
  · exact List.forall_mem_singleton.mpr hm

theorem MayOmit.mem_or_absent {isAbsent : Prop} {key : String} {text : List Char → Prop}
    {ms : List Member} (h : MayOmit isAbsent (Gives key text) ms) {ks : List String}
    (hks : ∀ m ∈ ms, m.key ∈ ks) : key ∈ ks ∨ isAbsent := by
  rcases h with ⟨habsent, -⟩ | ⟨m, ⟨rfl, -⟩, rfl⟩
  · exact .inr habsent
  · exact .inl (hks m List.mem_cons_self)

end Json

namespace ClaimInput

/-- The members that a claim is made of. -/
inductive Describes (c : ClaimInput) : List Member → Prop
  | mk {grant proof : List Member} {receiver nullifierHash : Member} :
    MayOmit (c.grantId = none) (Gives "grant_id" (NullableText c.grantId)) grant →
    Gives "receiver" (StringText c.receiver) receiver →
    Gives "nullifier_hash" (StringText c.nullifierHash) nullifierHash →
    MayOmit (c.proof = []) (Gives "proof" (StringsText c.proof)) proof →
    Describes c (grant ++ receiver :: nullifierHash :: proof)

/-- What is known of the claim when the members with these keys have been read. -/
def state (c : ClaimInput) (ks : List String) : Draft where
  grantId := if "grant_id" ∈ ks then some c.grantId else none
  receiver := if "receiver" ∈ ks then some c.receiver else none
  nullifierHash := if "nullifier_hash" ∈ ks then some c.nullifierHash else none
  proof := if "proof" ∈ ks then some c.proof else none

theorem Describes.tracks {c : ClaimInput} {own : List Member} (h : c.Describes own) :
    shape.Tracks own c.state where
  blank := rfl
  own := by
    obtain @⟨grant, proof, receiver, nullifierHash, hgrant, hreceiver, hnullifierHash, hproof⟩ := h
    refine List.forall_mem_append.mpr ⟨fun m hm => ?_, ?_⟩
    · obtain ⟨hkey, htext⟩ := hgrant.gives m hm
      exact .ofSlot hkey rfl htext.reads fun ks hks => by simp [state, hks]
    refine List.forall_mem_cons.mpr ⟨?_, List.forall_mem_cons.mpr ⟨?_, fun m hm => ?_⟩⟩
    · exact .ofSlot hreceiver.1 rfl hreceiver.2.reads fun ks hks => by simp [state, hks]
    · exact .ofSlot hnullifierHash.1 rfl hnullifierHash.2.reads fun ks hks => by simp [state, hks]
    · obtain ⟨hkey, htext⟩ := hproof.gives m hm
      exact .ofSlot hkey rfl htext.reads fun ks hks => by simp [state, hks]
  foreign := by
    intro key ks hfind
    have hother : ∀ field ∈ shape.fields, ¬field.key = key := by
      simpa using List.find?_eq_none.mp hfind
    simp only [shape, List.forall_mem_cons, Field.ofSlot] at hother
    obtain ⟨hgrant, hreceiver, hnullifierHash, hproof, -⟩ := hother
    simp [state, hgrant, hreceiver, hnullifierHash, hproof]

theorem Describes.nodup {c : ClaimInput} {own : List Member} (h : c.Describes own) :
    (own.map Member.key).Nodup := by
  obtain ⟨hgrant, ⟨hreceiver, -⟩, ⟨hnullifierHash, -⟩, hproof⟩ := h
  rcases hgrant with ⟨-, rfl⟩ | ⟨m, ⟨hgrant, -⟩, rfl⟩
  all_goals rcases hproof with ⟨-, rfl⟩ | ⟨m', ⟨hproof, -⟩, rfl⟩
  all_goals simp [*]

theorem Describes.complete {c : ClaimInput} {own : List Member} (h : c.Describes own)
    {ks : List String} (hks : ∀ m ∈ own, m.key ∈ ks) : shape.complete (c.state ks) = some c := by
  obtain ⟨hgrant, ⟨hreceiver, -⟩, ⟨hnullifierHash, -⟩, hproof⟩ := h
  obtain ⟨hgrantks, hks⟩ := List.forall_mem_append.mp hks
  obtain ⟨hreceiverks, hks⟩ := List.forall_mem_cons.mp hks
  obtain ⟨hnullifierks, hproofks⟩ := List.forall_mem_cons.mp hks
  have hgrantId : (c.state ks).grantId.join = c.grantId := by
    rcases hgrant.mem_or_absent hgrantks with hmem | habsent
    · simp [state, hmem]
    · simp only [state, habsent]
      split <;> rfl
  have hproofs : (c.state ks).proof.getD [] = c.proof := by
    rcases hproof.mem_or_absent hproofks with hmem | habsent
    · simp [state, hmem]
    · simp only [state, habsent]
      split <;> rfl
  have hreads : (c.state ks).receiver = some c.receiver := by
    rw [hreceiver] at hreceiverks
    simp [state, hreceiverks]
  have hreads' : (c.state ks).nullifierHash = some c.nullifierHash := by
    rw [hnullifierHash] at hnullifierks
    simp [state, hnullifierks]
  simp [shape, hreads, hreads', hgrantId, hproofs]

/-- The text of an object that says what the claim is, and in which the members `repeated` repeat
the keys of others. -/
def Arranged (c : ClaimInput) (repeated : List Member) (w : List Char) : Prop :=
  ∃ own, c.Describes own ∧ ∃ a : Arrangement shape own, a.repeated = repeated ∧ a.Text w

theorem Arranged.reads {c : ClaimInput} {w : List Char} (h : c.Arranged [] w) :
    Reads shape.read w c := by
  obtain ⟨own, hown, a, hnone, hw⟩ := h
  exact .arranged hown.tracks hown.nodup a hnone (fun _ => hown.complete) hw

theorem lawful (width : Nat) : shape.Lawful width where
  blank := by
    simp only [shape, List.forall_mem_cons]
    exact ⟨rfl, rfl, rfl, rfl, nofun⟩
  fills := by
    simp only [shape, List.forall_mem_cons, Field.ofSlot_read_eq_ok_iff]
    refine ⟨?_, ?_, ?_, ?_, nofun⟩
    all_goals
      rintro d s d' t ⟨a, -, rfl⟩
      exact ⟨rfl, rfl, rfl, rfl, nofun⟩
  steady := by
    simp only [shape, List.forall_mem_cons, Field.ofSlot_read_eq_error_iff]
    exact ⟨fun _ _ _ _ => id, fun _ _ _ _ => id, fun _ _ _ _ => id, fun _ _ _ _ => id, nofun⟩
  judges := by
    simp only [shape, List.forall_mem_cons]
    refine ⟨?_, ?_, ?_, ?_, nofun⟩
    · exact fun d v hv => (hv.judged_option hv.judged_string).ofSlot d
    · exact fun d v hv => hv.judged_string.ofSlot d
    · exact fun d v hv => hv.judged_string.ofSlot d
    · exact fun d v hv => (hv.judged_list fun _ hw => hw.judged_string).ofSlot d

theorem Arranged.refuses {c : ClaimInput} {repeated : List Member} {w : List Char}
    (h : c.Arranged repeated w) (hsome : repeated ≠ []) : Refuses shape.read w .mistyped := by
  obtain ⟨own, hown, a, rfl, hw⟩ := h
  refine .arranged (lawful 0) a (fun m hm => ?_) (.inl hsome) hw
  obtain ⟨field, put, hput, -⟩ := hown.tracks.own m hm
  exact ⟨field, hput.find, fun d => .inl ⟨put d, hput.reads d⟩⟩

end ClaimInput

namespace BatchInput

/-- The members that a batch is made of, given how the text of its claims looks. -/
inductive Describes (b : BatchInput) (text : List Char → Prop) : List Member → Prop
  | mk {grant : List Member} {root claimCount capacity claims : Member} :
    MayOmit (b.grantId = none) (Gives "grant_id" (NullableText b.grantId)) grant →
    Gives "root" (StringText b.root) root →
    Gives "num_proofs" (CountText b.claimCount) claimCount →
    Gives "max_proofs" (CountText b.capacity) capacity →
    Gives "claims" text claims →
    Describes b text (grant ++ [root, claimCount, capacity, claims])

/-- What is known of the batch when the members with these keys have been read. -/
def state (b : BatchInput) (ks : List String) : Draft where
  grantId := if "grant_id" ∈ ks then some b.grantId else none
  root := if "root" ∈ ks then some b.root else none
  claimCount := if "num_proofs" ∈ ks then some b.claimCount else none
  capacity := if "max_proofs" ∈ ks then some b.capacity else none
  claims := if "claims" ∈ ks then some b.claims else none

theorem lawful : shape.Lawful ClaimInput.shape.fields.length where
  blank := by
    simp only [shape, List.forall_mem_cons]
    exact ⟨rfl, rfl, rfl, rfl, rfl, nofun⟩
  fills := by
    simp only [shape, List.forall_mem_cons, Field.ofSlot_read_eq_ok_iff]
    refine ⟨?_, ?_, ?_, ?_, ?_, nofun⟩
    all_goals
      rintro d s d' t ⟨a, -, rfl⟩
      exact ⟨rfl, rfl, rfl, rfl, rfl, nofun⟩
  steady := by
    simp only [shape, List.forall_mem_cons, Field.ofSlot_read_eq_error_iff]
    exact ⟨fun _ _ _ _ => id, fun _ _ _ _ => id, fun _ _ _ _ => id, fun _ _ _ _ => id,
      fun _ _ _ _ => id, nofun⟩
  judges := by
    simp only [shape, List.forall_mem_cons]
    refine ⟨?_, ?_, ?_, ?_, ?_, nofun⟩
    · exact fun d v hv => (hv.judged_option hv.judged_string).ofSlot d
    · exact fun d v hv => hv.judged_string.ofSlot d
    · exact fun d v hv => hv.judged_count.ofSlot d
    · exact fun d v hv => hv.judged_count.ofSlot d
    · exact fun d v hv => (hv.judged_list fun _ hw =>
        hw.judged_shape (Nat.le_refl _) (ClaimInput.lawful _).judges).ofSlot d

/-- What makes a well-formed value malformed for a field of a batch or of a claim: in it there is a
number too large for a double, half of a surrogate pair, or an array of more than four elements. -/
theorem spoiled_of_malformed {v : List Char} (hv : WellFormed v) :
    (∀ field ∈ shape.fields, ∀ d,
      readDocument (field.read d) (String.ofList v) = .error .malformed → Spoiled 4 v) ∧
    ∀ field ∈ ClaimInput.shape.fields, ∀ d,
      readDocument (field.read d) (String.ofList v) = .error .malformed → Spoiled 4 v :=
  ⟨fun _ hfield _ => lawful.spoiled_of_malformed hfield hv,
    fun _ hfield _ => (ClaimInput.lawful 4).spoiled_of_malformed hfield hv⟩

section Describes

variable {b : BatchInput} {text : List Char → Prop} {own : List Member}

/-- A member of the batch gives the claims, or its value is read into the draft. -/
theorem Describes.member (h : b.Describes text own) :
    ∀ m ∈ own, Gives "claims" text m ∨ shape.Advances b.state m := by
  obtain @⟨grant, root, claimCount, capacity, claims, hgrant, hroot, hcount, hcapacity, hclaims⟩ :=
    h
  refine List.forall_mem_append.mpr ⟨fun m hm => .inr ?_, ?_⟩
  · obtain ⟨hkey, hvalue⟩ := hgrant.gives m hm
    exact .ofSlot hkey rfl hvalue.reads fun ks hks => by simp [state, hks]
  simp only [List.forall_mem_cons]
  refine ⟨.inr ?_, .inr ?_, .inr ?_, .inl hclaims, nofun⟩
  · exact .ofSlot hroot.1 rfl hroot.2.reads fun ks hks => by simp [state, hks]
  · exact .ofSlot hcount.1 rfl hcount.2.reads fun ks hks => by simp [state, hks]
  · exact .ofSlot hcapacity.1 rfl hcapacity.2.reads fun ks hks => by simp [state, hks]

theorem Describes.exists_claims (h : b.Describes text own) :
    ∃ m ∈ own, Gives "claims" text m := by
  obtain ⟨-, -, -, -, hclaims⟩ := h
  exact ⟨_, by simp, hclaims⟩

theorem Describes.tracks (h : b.Describes text own)
    (htext : ∀ w, text w → Reads (readList ClaimInput.shape.read) w b.claims) :
    shape.Tracks own b.state where
  blank := rfl
  own := by
    intro m hm
    rcases h.member m hm with ⟨hkey, hvalue⟩ | hput
    · exact .ofSlot hkey rfl (htext _ hvalue) fun ks hks => by simp [state, hks]
    · exact hput
  foreign := by
    intro key ks hfind
    have hother : ∀ field ∈ shape.fields, ¬field.key = key := by
      simpa using List.find?_eq_none.mp hfind
    simp only [shape, List.forall_mem_cons, Field.ofSlot] at hother
    obtain ⟨hgrant, hroot, hcount, hcapacity, hclaims, -⟩ := hother
    simp [state, hgrant, hroot, hcount, hcapacity, hclaims]

theorem Describes.nodup (h : b.Describes text own) : (own.map Member.key).Nodup := by
  obtain ⟨hgrant, ⟨hroot, -⟩, ⟨hcount, -⟩, ⟨hcapacity, -⟩, ⟨hclaims, -⟩⟩ := h
  rcases hgrant with ⟨-, rfl⟩ | ⟨m, ⟨hgrant, -⟩, rfl⟩
  all_goals simp [*]

theorem Describes.complete (h : b.Describes text own) {ks : List String}
    (hks : ∀ m ∈ own, m.key ∈ ks) : shape.complete (b.state ks) = some b := by
  obtain ⟨hgrant, ⟨hroot, -⟩, ⟨hcount, -⟩, ⟨hcapacity, -⟩, ⟨hclaims, -⟩⟩ := h
  obtain ⟨hgrantks, hks⟩ := List.forall_mem_append.mp hks
  simp only [List.forall_mem_cons, hroot, hcount, hcapacity, hclaims] at hks
  obtain ⟨hrootks, hcountks, hcapacityks, hclaimsks, -⟩ := hks
  have hgrantId : (b.state ks).grantId.join = b.grantId := by
    rcases hgrant.mem_or_absent hgrantks with hmem | habsent
    · simp [state, hmem]
    · simp only [state, habsent]
      split <;> rfl
  have hfilled : b.state ks = ⟨(b.state ks).grantId, some b.root, some b.claimCount,
      some b.capacity, some b.claims⟩ := by
    simp [state, hrootks, hcountks, hcapacityks, hclaimsks]
  rw [hfilled]
  simp [shape, hgrantId]

end Describes

/-- The text of an object that says what the batch is, and in which the members `repeated` repeat
the keys of others, there or in the objects of the claims. -/
def Arranged (b : BatchInput) (repeated : List Member) (w : List Char) : Prop :=
  ∃ claims : List (List Member × List Char),
    List.Forall₂ (fun c claim => c.Arranged claim.1 claim.2) b.claims claims ∧
    ∃ own, b.Describes (ArrayText (claims.map (·.2))) own ∧ ∃ a : Arrangement shape own,
      a.repeated ++ claims.flatMap (·.1) = repeated ∧ a.Text w

section Claims

variable {cs : List ClaimInput} {claims : List (List Member × List Char)} {w : List Char}

theorem reads_claims (h : List.Forall₂ (fun c claim => c.Arranged claim.1 claim.2) cs claims)
    (hnone : claims.flatMap (·.1) = []) (hw : ArrayText (claims.map (·.2)) w) :
    Reads (readList ClaimInput.shape.read) w cs := by
  refine .array hw ?_
  clear hw
  induction h with
  | nil => exact .nil
  | cons hc _ ih =>
    rw [List.flatMap_cons, List.append_eq_nil_iff] at hnone
    obtain ⟨hfirst, hothers⟩ := hnone
    rw [hfirst] at hc
    exact .cons hc.reads (ih hothers)

theorem refuses_claims (h : List.Forall₂ (fun c claim => c.Arranged claim.1 claim.2) cs claims)
    (hsome : claims.flatMap (·.1) ≠ []) (hw : ArrayText (claims.map (·.2)) w) :
    Refuses (readList ClaimInput.shape.read) w .mistyped := by
  refine .array hw (List.forall_mem_map.mpr fun claim hclaim => ?_) ?_
  · obtain ⟨c, -, hc⟩ := exists_of_forall₂_right h hclaim
    by_cases hnone : claim.1 = []
    · rw [hnone] at hc
      exact .inl ⟨c, hc.reads⟩
    · exact .inr (hc.refuses hnone)
  · obtain ⟨m, hm⟩ := List.exists_mem_of_ne_nil _ hsome
    obtain ⟨claim, hclaim, hmem⟩ := List.mem_flatMap.mp hm
    obtain ⟨c, -, hc⟩ := exists_of_forall₂_right h hclaim
    exact ⟨claim.2, List.mem_map_of_mem hclaim, hc.refuses (List.ne_nil_of_mem hmem)⟩

end Claims

theorem Arranged.reads {b : BatchInput} {w : List Char} (h : b.Arranged [] w) :
    Reads shape.read w b := by
  obtain ⟨claims, hclaims, own, hown, a, hrepeated, hw⟩ := h
  obtain ⟨hnone, hnones⟩ := List.append_eq_nil_iff.mp hrepeated
  exact .arranged (hown.tracks fun w hw => reads_claims hclaims hnones hw) hown.nodup a hnone
    (fun _ => hown.complete) hw

theorem Arranged.refuses {b : BatchInput} {repeated : List Member} {w : List Char}
    (h : b.Arranged repeated w) (hsome : repeated ≠ []) : Refuses shape.read w .mistyped := by
  obtain ⟨claims, hclaims, own, hown, a, rfl, hw⟩ := h
  have hfind {m : Member} (hkey : m.key = "claims") :
      shape.fields.find? (·.key = m.key) = some (.ofSlot "claims" (·.claims)
        (fun d a => { d with claims := some a }) (readList ClaimInput.shape.read)) := by
    rw [hkey]
    rfl
  refine .arranged lawful a (fun m hm => ?_) ?_ hw
  · rcases hown.member m hm with ⟨hkey, hvalue⟩ | ⟨field, put, hput, -⟩
    · refine ⟨_, hfind hkey, fun d => ?_⟩
      by_cases hnone : claims.flatMap (·.1) = []
      · exact .inl ⟨_, (reads_claims hclaims hnone hvalue).ofSlot d⟩
      · exact .inr ((refuses_claims hclaims hnone hvalue).ofSlot d)
    · exact ⟨field, hput.find, fun d => .inl ⟨put d, hput.reads d⟩⟩
  · by_cases hnone : a.repeated = []
    · rw [hnone] at hsome
      obtain ⟨m, hm, hkey, hvalue⟩ := hown.exists_claims
      exact .inr ⟨m, hm, _, hfind hkey, fun d => (refuses_claims hclaims hsome hvalue).ofSlot d⟩
    · exact .inl hnone

end BatchInput

end ClaimTree
