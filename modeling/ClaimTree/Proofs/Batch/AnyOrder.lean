import ClaimTree.Proofs.Batch.Arrangement
import ClaimTree.Proofs.Command.Basic

namespace ClaimTree

open Json

namespace Json

theorem spelled_escape (text : List Char) : Spelled (text.flatMap escape) text := by
  induction text with
  | nil => exact .nil
  | cons c text ih =>
    rw [List.flatMap_cons]
    unfold escape
    split
    all_goals try exact .letter rfl ih
    next hquote hbackslash _ _ _ _ _ =>
      split
      · next hcontrol =>
        have hunit := unit?_eq_ok_iff.mp (unit?_control hcontrol)
        have hleading : isLeading c.toNat = false := by simp [isLeading]; omega
        have htrailing : isTrailing c.toNat = false := by simp [isTrailing]; omega
        have hspelled := Spelled.unit hunit htrailing hleading ih
        rwa [Char.ofNat_toNat] at hspelled
      · next hcontrol => exact .plain hquote hbackslash (Nat.le_of_not_lt hcontrol) ih

/-- The member with this key, written without escapes where they can be done without. -/
def Member.of (key : String) (value : List Char) : Member :=
  ⟨key, key.toList.flatMap escape, spelled_escape key.toList, value⟩

/-- The member as it is written at this depth. -/
def Member.written (layout : Layout) (depth : Nat) (m : String × Json) : Member :=
  .of m.1 (m.2.write layout depth)

theorem memberText_write (layout : Layout) (depth : Nat) (m : String × Json) :
    MemberText (Member.written layout depth m).text (writeMember layout depth m) := by
  have helement : ∃ before, Spaces before ∧ layout.colon = ':' :: before := by
    cases layout with
    | compact => exact ⟨[], spaces_nil, rfl⟩
    | pretty => exact ⟨[' '], List.forall_mem_singleton.mpr rfl, rfl⟩
  obtain ⟨before, hbefore, hcolon⟩ := helement
  refine ⟨layout.lineBreak depth, [], before ++ m.2.write layout depth,
    spaces_lineBreak layout depth, spaces_nil, ⟨before, [], hbefore, spaces_nil, ?_⟩, ?_⟩
  · rw [List.append_nil]
    rfl
  · rw [writeMember, quote_append, hcolon]
    rfl

theorem objectText_write (layout : Layout) (depth : Nat) (ms : List (String × Json)) :
    ObjectText ((ms.map (Member.written layout (depth + 1))).map Member.text)
      ((Json.object ms).write layout depth) := by
  obtain ⟨after, hafter, hwrite⟩ := write_object layout depth ms
  refine ⟨_, after, ?_, hafter, hwrite⟩
  rw [List.map_map]
  refine List.forall₂_map_left_iff.mpr (List.forall₂_map_right_iff.mpr ?_)
  exact List.forall₂_same.mpr fun m _ => memberText_write layout (depth + 1) m

theorem arrayText_write (layout : Layout) (depth : Nat) (vs : List Json) :
    ArrayText (vs.map (write layout (depth + 1))) ((Json.array vs).write layout depth) := by
  obtain ⟨after, hafter, hwrite⟩ := write_array layout depth vs
  refine ⟨_, after, ?_, hafter, hwrite⟩
  refine List.forall₂_map_left_iff.mpr (List.forall₂_map_right_iff.mpr ?_)
  refine List.forall₂_same.mpr fun v _ => ?_
  exact ⟨_, [], spaces_lineBreak layout (depth + 1), spaces_nil, (List.append_nil _).symm⟩

/-- The member without white space. -/
def Member.tight (m : Member) : List Char := '"' :: (m.spelling ++ '"' :: ':' :: m.value)

theorem objectText_tight (ms : List Member) :
    ObjectText (ms.map Member.text) ('{' :: (separated true (ms.map Member.tight) ++ ['}'])) := by
  refine ⟨ms.map Member.tight, [], ?_, spaces_nil, rfl⟩
  refine List.forall₂_map_left_iff.mpr (List.forall₂_map_right_iff.mpr ?_)
  refine List.forall₂_same.mpr fun m _ => ⟨[], [], m.value, spaces_nil, spaces_nil, ?_, rfl⟩
  exact ⟨[], [], spaces_nil, spaces_nil, (List.append_nil _).symm⟩

theorem arrayText_tight (vs : List (List Char)) :
    ArrayText vs ('[' :: (separated true vs ++ [']'])) := by
  refine ⟨vs, [], List.forall₂_same.mpr fun v _ => ?_, spaces_nil, rfl⟩
  exact ⟨[], [], spaces_nil, spaces_nil, (List.append_nil _).symm⟩

/-- Members in some order among others that are passed over. -/
def Arrangement.shuffled {δ α : Type} (shape : Shape δ α) (own members foreign : List Member)
    (perm : members.Perm (own ++ foreign))
    (unknown : ∀ m ∈ foreign, shape.fields.find? (·.key = m.key) = none)
    (wellFormed : ∀ m ∈ foreign, WellFormed m.value) : Arrangement shape own where
  members
  repeated := []
  foreign
  perm
  known := nofun
  repeats := nofun
  unknown
  wellFormed
  leading := nofun

/-- Members in the order in which they are given, and nothing else. -/
def Arrangement.plain {δ α : Type} (shape : Shape δ α) (own : List Member) :
    Arrangement shape own :=
  shuffled shape own own [] (by rw [List.append_nil]) nofun nofun

/-- A member that is left out when it holds nothing, as it is written. -/
theorem mayOmit_optional {β : Type} {key : String} {value : Option β} {write : β → Json}
    {isAbsent : Prop} {text : List Char → Prop} (layout : Layout) (depth : Nat)
    (hnone : value = none → isAbsent)
    (hsome : ∀ b, value = some b → text ((write b).write layout depth)) :
    MayOmit isAbsent (Gives key text)
      ((optional key (value.map write)).map (Member.written layout depth)) := by
  cases value with
  | none => exact .inl ⟨hnone rfl, rfl⟩
  | some b => exact .inr ⟨_, ⟨rfl, hsome b rfl⟩, rfl⟩

theorem stringText_write (layout : Layout) (depth : Nat) (text : String) :
    StringText text ((Json.string text).write layout depth) := by
  refine ⟨_, spelled_escape text.toList, ?_⟩
  rw [write, quote, List.cons_append]

theorem nullableText_write (layout : Layout) (depth : Nat) (text : String) :
    NullableText (some text) ((Json.string text).write layout depth) :=
  stringText_write layout depth text

theorem gives_string (layout : Layout) (depth : Nat) (key text : String) :
    Gives key (StringText text) (.written layout depth (key, .string text)) :=
  ⟨rfl, stringText_write layout depth text⟩

theorem gives_count (layout : Layout) (depth : Nat) (key : String) (n : UInt64) :
    Gives key (CountText n) (.written layout depth (key, .integer n.toNat)) := by
  refine ⟨rfl, ?_⟩
  rw [Member.written, write]
  rfl

end Json

theorem ClaimInput.toJson_arranged (c : ClaimInput) (layout : Layout) (depth : Nat) :
    c.Arranged [] (c.toJson.write layout depth) := by
  refine ⟨_, ?_, .plain shape _, rfl, objectText_write layout depth _⟩
  rw [List.map_append, List.map_append, List.append_assoc]
  refine .mk ?_ (gives_string layout (depth + 1) _ _) (gives_string layout (depth + 1) _ _) ?_
  · exact mayOmit_optional layout (depth + 1) id fun text htext =>
      htext ▸ nullableText_write layout (depth + 1) text
  · cases hproof : c.proof with
    | nil => exact .inl ⟨rfl, rfl⟩
    | cons text texts =>
      refine .inr ⟨_, ⟨rfl, _, ?_, arrayText_write layout (depth + 1) _⟩, rfl⟩
      rw [List.map_map]
      refine List.forall₂_map_right_iff.mpr (List.forall₂_same.mpr fun text _ => ?_)
      exact stringText_write layout (depth + 1 + 1) text

/-- The written object form of a batch is one of its arrangements. -/
theorem BatchInput.toJson_arranged (b : BatchInput) (layout : Layout) (depth : Nat) :
    b.Arranged [] (b.toJson.write layout depth) := by
  let claims : List (List Member × List Char) :=
    b.claims.map fun c => ([], c.toJson.write layout (depth + 1 + 1))
  have hclaims : List.Forall₂ (fun c claim => c.Arranged claim.1 claim.2) b.claims claims := by
    refine List.forall₂_map_right_iff.mpr (List.forall₂_same.mpr fun c _ => ?_)
    exact c.toJson_arranged layout (depth + 1 + 1)
  refine ⟨claims, hclaims, _, ?_, .plain shape _, ?_, objectText_write layout depth _⟩
  · rw [List.map_append]
    refine .mk ?_ (gives_string layout (depth + 1) _ _) (gives_count layout (depth + 1) _ _)
      (gives_count layout (depth + 1) _ _) ⟨rfl, ?_⟩
    · exact mayOmit_optional layout (depth + 1) id fun text htext =>
        htext ▸ nullableText_write layout (depth + 1) text
    · have harray := arrayText_write layout (depth + 1) (b.claims.map (·.toJson))
      rw [List.map_map] at harray
      rw [List.map_map]
      exact harray
  · simp [claims, Arrangement.plain, Arrangement.shuffled]

namespace BatchInput

/-- A document of a batch is read as that batch whatever the order of the members, what stands among
them, the ways to write what is absent, and the white space; so the commitment is the one to the
written batch. Where the key of a field is repeated it is refused, and nothing is loaded. -/
theorem arranged_documents (b : BatchInput) :
    (∀ layout, b.Arranged [] (b.toJson.write layout 0)) ∧
    (∀ w text, b.Arranged [] w → ElementText w text.toList →
      ofText text = .ok b ∧
      ∀ (fs : Files) (path written : String) (layout : Layout), fs.read path = .ok text.toUTF8 →
        fs.read written = .ok (b.toJson.text layout).toUTF8 →
        Batch.ofContents path (fs.read path) = Batch.ofContents written (fs.read written) ∧
        ∀ version allow, (loadCommitment ⟨path, version, allow⟩).run fs =
          (loadCommitment ⟨written, version, allow⟩).run fs) ∧
    ∀ repeated w text, repeated ≠ [] → b.Arranged repeated w → ElementText w text.toList →
      ofText text = .error .mistyped ∧
      ∀ (fs : Files) (path : String), fs.read path = .ok text.toUTF8 →
        Batch.ofContents path (fs.read path) = .error (.document path .mistyped) ∧
        ∀ config : Config, config.input = path → (loadCommitment config).run fs =
          (fs, ⟨[], .error (.load (.document path .mistyped))⟩) := by
  refine ⟨fun layout => b.toJson_arranged layout 0, fun w text hw htext => ?_,
    fun repeated w text hsome hw htext => ?_⟩
  · obtain ⟨before, after, hbefore, hafter, htext⟩ := htext
    have hread : ofText text = .ok b :=
      Reads.readDocument (htext ▸ hw.reads.surrounded hbefore hafter)
    refine ⟨hread, fun fs path written layout hpath hwritten => ?_⟩
    have hheld : b.HeldBy text.toUTF8 := ⟨text, fromUTF8?_toUTF8 text, hread⟩
    have hsame :
        Batch.ofContents path (fs.read path) = Batch.ofContents written (fs.read written) := by
      rw [hpath, hwritten, hheld.ofContents, (b.heldBy_toJson layout).ofContents]
    exact ⟨hsame, run_loadCommitment_congr hsame⟩
  · obtain ⟨before, after, hbefore, hafter, htext⟩ := htext
    have hread : ofText text = .error .mistyped :=
      Refuses.readDocument (htext ▸ (hw.refuses hsome).surrounded hbefore hafter)
    exact ⟨hread, fun fs path => ofContents_of_fault hread⟩

section Sample

def sampleClaim : ClaimInput := ⟨none, "a", "7", []⟩

def sampleClaimMembers : List Member :=
  [.of "receiver" "\"\\u0061\"".toList, .written .compact 0 ("nullifier_hash", .string "7"),
    .of "proof" "[ ]".toList]

/-- The members of the claim from the last to the first. -/
def sampleClaimText : List Char :=
  '{' :: (separated true (sampleClaimMembers.reverse.map Member.tight) ++ ['}'])

theorem arranged_sampleClaim : sampleClaim.Arranged [] sampleClaimText := by
  have hreceiver : StringText "a" "\"\\u0061\"".toList := by
    refine ⟨"\\u0061".toList, .unit (n := 97) ?_ rfl rfl .nil, rfl⟩
    exact (Text.number?_eq_some_iff (by decide)).mp rfl
  have hproof : Gives "proof" (StringsText []) (.of "proof" "[ ]".toList) :=
    ⟨rfl, [], .nil, [], [' '], .nil, List.forall_mem_singleton.mpr rfl, rfl⟩
  have hdescribes : sampleClaim.Describes ([] ++ sampleClaimMembers) :=
    .mk (.inl ⟨rfl, rfl⟩) ⟨rfl, hreceiver⟩ (gives_string .compact 0 "nullifier_hash" "7")
      (.inr ⟨_, hproof, rfl⟩)
  refine ⟨_, hdescribes, .shuffled _ _ sampleClaimMembers.reverse [] ?_ nofun nofun, rfl,
    objectText_tight sampleClaimMembers.reverse⟩
  rw [List.append_nil]
  exact List.reverse_perm sampleClaimMembers

def sample : BatchInput := ⟨none, "0", 1, 1, [sampleClaim]⟩

def sampleMembers : List Member :=
  [.of "grant_id" "null".toList, .written .compact 0 ("root", .string "0"),
    .written .compact 0 ("num_proofs", .integer 1), .written .compact 0 ("max_proofs", .integer 1),
    .of "claims" ('[' :: (separated true [sampleClaimText] ++ [']']))]

theorem describes_sample : sample.Describes (ArrayText [sampleClaimText]) sampleMembers := by
  have hgrant : Gives "grant_id" (NullableText none) (.of "grant_id" "null".toList) := ⟨rfl, rfl⟩
  have hclaims : Gives "claims" (ArrayText [sampleClaimText])
      (.of "claims" ('[' :: (separated true [sampleClaimText] ++ [']']))) :=
    ⟨rfl, arrayText_tight [sampleClaimText]⟩
  exact .mk (.inr ⟨_, hgrant, rfl⟩) (gives_string .compact 0 "root" "0")
    (gives_count .compact 0 "num_proofs" 1) (gives_count .compact 0 "max_proofs" 1) hclaims

theorem body_unpaired : Body "\\ud800".toList :=
  .unit (n := 0xd800) ((Text.number?_eq_some_iff (by decide)).mp rfl) .nil

theorem wellFormed_tooLarge : WellFormed "1e999".toList := by
  have hwhole : Digits ['1'] := ⟨List.cons_ne_nil _ _, List.all_eq_true.mp rfl⟩
  have hexponent : Digits ['9', '9', '9'] := ⟨List.cons_ne_nil _ _, List.all_eq_true.mp rfl⟩
  exact .number (.mk (.inl rfl) hwhole nofun .absent (.present (.inl rfl) (.inl rfl) hexponent))

/-- A member that is passed over, although no field could hold a part of its value. -/
def note : Member := .of "note" "[\"\\ud800\",1e999]".toList

theorem wellFormed_note : WellFormed note.value := by
  refine .array ?_ (arrayText_tight ["\"\\ud800\"".toList, "1e999".toList])
  refine List.forall_mem_cons.mpr ⟨.string body_unpaired, ?_⟩
  exact List.forall_mem_singleton.mpr wellFormed_tooLarge

theorem arranged_sample : sample.Arranged []
    ('{' :: (separated true ((sampleMembers ++ [note]).reverse.map Member.tight) ++ ['}'])) :=
  ⟨[([], sampleClaimText)], .cons arranged_sampleClaim .nil, _, describes_sample,
    .shuffled _ _ _ [note] (List.reverse_perm _) (List.forall_mem_singleton.mpr rfl)
      (List.forall_mem_singleton.mpr wellFormed_note), rfl, objectText_tight _⟩

def otherRoot : Member := .of "root" "[]".toList

/-- The members of the batch behind another root, which is no root at all. -/
def repeatedRoot : Arrangement shape sampleMembers where
  members := otherRoot :: sampleMembers
  repeated := [otherRoot]
  foreign := []
  perm := (List.perm_append_singleton otherRoot sampleMembers).symm
  known := List.forall_mem_singleton.mpr ⟨_, rfl⟩
  repeats := List.forall_mem_singleton.mpr (by decide)
  unknown := nofun
  wellFormed := List.forall_mem_singleton.mpr (.array (List.forall_mem_nil _) (arrayText_tight []))
  leading := by
    rintro front m back - hm - field hfind
    obtain rfl := List.mem_singleton.mp hm
    obtain rfl : _ = field := Option.some.inj hfind
    nofun

theorem arranged_repeatedRoot : sample.Arranged [otherRoot]
    ('{' :: (separated true ((otherRoot :: sampleMembers).map Member.tight) ++ ['}'])) :=
  ⟨[([], sampleClaimText)], .cons arranged_sampleClaim .nil, _, describes_sample, repeatedRoot, rfl,
    objectText_tight _⟩

end Sample

/-- The members of a batch and of its claim from the last to the first, with a proof of no parts,
`null` for the grant, and a note that is passed over; and the batch behind another root. -/
theorem arranged_documents_backwards :
    let backwards := " \x7b\"note\":[\"\\ud800\",1e999],\"claims\":[\x7b\"proof\":[ ]," ++
      "\"nullifier_hash\":\"7\",\"receiver\":\"\\u0061\"\x7d],\"max_proofs\":1," ++
      "\"num_proofs\":1,\"root\":\"0\",\"grant_id\":null\x7d\n"
    let repeated := "\x7b\"root\":[],\"grant_id\":null,\"root\":\"0\",\"num_proofs\":1," ++
      "\"max_proofs\":1,\"claims\":[\x7b\"proof\":[ ],\"nullifier_hash\":\"7\"," ++
      "\"receiver\":\"\\u0061\"\x7d]\x7d"
    let fs := ((Files.empty ⟨["w"]⟩).put ⟨["w", "a.json"]⟩ (.file backwards.toUTF8)).put
      ⟨["w", "b.json"]⟩ (.file (sample.toJson.text .compact).toUTF8)
    ofText backwards = .ok sample ∧
      (∀ version allow, (loadCommitment ⟨"a.json", version, allow⟩).run fs =
        (loadCommitment ⟨"b.json", version, allow⟩).run fs) ∧
      ofText repeated = .error .mistyped := by
  intro backwards repeated fs
  have hspace : Spaces [' '] := List.forall_mem_singleton.mpr rfl
  have hline : Spaces ['\n'] := List.forall_mem_singleton.mpr rfl
  obtain ⟨hread, hload⟩ := (arranged_documents sample).2.1 _ backwards arranged_sample
    ⟨[' '], ['\n'], hspace, hline, by decide +kernel⟩
  obtain ⟨hrefused, -⟩ := (arranged_documents sample).2.2 _ _ repeated (List.cons_ne_nil _ _)
    arranged_repeatedRoot ⟨[], [], spaces_nil, spaces_nil, by decide +kernel⟩
  exact ⟨hread, (hload fs "a.json" "b.json" .compact rfl rfl).2, hrefused⟩

/-- A number too large for a double or half of a surrogate pair, in front of the root that it
repeats, is found to be malformed before the key is seen again, and so is a claim with a surplus
element in front of the claims. A key that is no text is malformed whatever fields there are. -/
theorem repeated_too_large :
    WellFormed "1e999".toList ∧ Body "\\ud800".toList ∧
    ofText "\x7b\"root\":\"0\",\"num_proofs\":0,\"max_proofs\":1,\"claims\":[]\x7d" =
      .ok ⟨none, "0", 0, 1, []⟩ ∧
    ofText ("\x7b\"root\":1e999,\"root\":\"0\",\"num_proofs\":0,\"max_proofs\":1," ++
      "\"claims\":[]\x7d") = .error .malformed ∧
    ofText ("\x7b\"root\":\"\\ud800\",\"root\":\"0\",\"num_proofs\":0,\"max_proofs\":1," ++
      "\"claims\":[]\x7d") = .error .malformed ∧
    ofText ("\x7b\"claims\":[[null,\"\",\"\",[],0]],\"root\":\"0\",\"num_proofs\":0," ++
      "\"max_proofs\":1,\"claims\":[]\x7d") = .error .malformed ∧
    ofText ("\x7b\"\\ud800\":1,\"root\":\"0\",\"num_proofs\":0,\"max_proofs\":1," ++
      "\"claims\":[]\x7d") = .error .malformed :=
  ⟨wellFormed_tooLarge, body_unpaired, by decide +kernel, by decide +kernel, by decide +kernel,
    by decide +kernel, by decide +kernel⟩

end BatchInput

end ClaimTree
