import ClaimTree.Proofs.Command.Run
import ClaimTree.Proofs.Commitment.Export
import ClaimTree.Proofs.Files.Atomic
import ClaimTree.Proofs.Record.Document
import ClaimTree.Proofs.Tree.Dump

namespace ClaimTree

namespace Task

variable {task : Task} {fs : Files} {config : Config} {k : Commitment} {out text : String}

/-- A batch that cannot be committed to stops every task in the same way. -/
theorem result_run_of_loadCommitment_error {f : Commitment → Command String} {e : CommandError}
    (htask : task.command = loadCommitment config >>= f)
    (h : ((loadCommitment config).run fs).2.result = .error e) :
    (task.run fs).2.result = .error e := by
  rw [run, htask]
  exact Command.result_run_bind_of_error h

theorem exists_command_exportClaims (config : Config) (selection : Selection) (out : String) :
    ∃ f, (exportClaims config selection out).command = loadCommitment config >>= f := by
  cases selection <;> exact ⟨_, rfl⟩

theorem result_run_root (h : ((loadCommitment config).run fs).2.result = .ok k) :
    ((root config).run fs).2.result = .ok (k.root.text ++ "\n") :=
  ((reads_loadCommitment config).run_bind_of_ok h).2

/-- Carried out, the task leaves a file with this text. -/
def Leaves (task : Task) (fs : Files) (out text : String) : Prop :=
  (task.run fs).2.result = .ok "" ∧ (task.run fs).1.read out = .ok text.toUTF8

theorem leaves_of_loadCommitment {f : Commitment → Command String} (done : Logged String)
    (htask : task.command = loadCommitment config >>= f)
    (hput : f k = Command.put out text >>= fun _ => liftM done) (hdone : done.result = .ok "")
    (h : ((loadCommitment config).run fs).2.result = .ok k) (hout : fs.Writable out) :
    task.Leaves fs out text := by
  obtain ⟨hfiles, hresult⟩ := run_of_loadCommitment done htask hput hdone h
  obtain ⟨fs', hwritten, hread⟩ := hout.writeAtomic_read text.toUTF8
  rw [Option.bind_none, hwritten] at hfiles hresult
  exact ⟨hresult, hfiles ▸ hread⟩

theorem exists_dump_leaves (h : ((loadCommitment config).run fs).2.result = .ok k)
    (hout : fs.Writable out) :
    ∃ text, (dump config out).Leaves fs out text ∧
      (Text.lines text.toList).getLast? =
        some (Nat.toDigits 10 k.tree.depth ++ ':' :: '0' :: ':' :: k.root.text.toList) := by
  let done : Logged String := ⟨[.dumpWritten k.tree.layers.length], .ok ""⟩
  exact ⟨_, leaves_of_loadCommitment done rfl rfl rfl h hout, k.tree.getLast?_lines_dump⟩

theorem exists_exportClaims_all_leaves {records : List ClaimRecord}
    (h : ((loadCommitment config).run fs).2.result = .ok k)
    (hrecords : k.records = .ok records) (hout : fs.Writable out) :
    ∃ text, (exportClaims config .all out).Leaves fs out text ∧
      ClaimRecord.listOfText text = .ok records := by
  let done : Logged String := ⟨[.recordsWritten records.length], .ok ""⟩
  refine ⟨_, leaves_of_loadCommitment done rfl ?_ rfl h hout,
    ClaimRecord.listOfText_toJson records .pretty⟩
  rw [hrecords]
  rfl

theorem exists_exportClaims_one_leaves {index : Nat} {record : ClaimRecord}
    (h : ((loadCommitment config).run fs).2.result = .ok k)
    (hrecord : k.record index = .ok record) (hout : fs.Writable out) :
    ∃ text, (exportClaims config (.one index) out).Leaves fs out text ∧
      ClaimRecord.ofText text = .ok record := by
  let done : Logged String := ⟨[.recordWritten index record.receiver], .ok ""⟩
  refine ⟨_, leaves_of_loadCommitment done rfl ?_ rfl h hout, record.ofText_toJson .pretty⟩
  rw [hrecord]
  rfl

theorem result_run_exportClaims_beyond {index : Nat}
    (h : ((loadCommitment config).run fs).2.result = .ok k) (hindex : k.claims.length ≤ index) :
    ((exportClaims config (.one index) out).run fs).2.result =
      .error (.exportClaim index (.indexOutOfRange index k.claims.length)) := by
  have hrecord : k.record index = .error (.indexOutOfRange index k.claims.length) := by
    rw [Commitment.record, List.getElem?_eq_none hindex]
  refine ((reads_loadCommitment config).run_bind_of_ok h).2.trans ?_
  rw [hrecord]
  rfl

/-- For a batch whose root is printed, the dump of the tree ends in that root, and every claim is
exported with it, alone or among all of them; what stops the root stops the others. -/
theorem run_agree (config : Config) (fs : Files) :
    (∀ printed, ((root config).run fs).2.result = .ok printed →
      ∃ (R : String) (batch : Batch) (depth : Nat) (records : List ClaimRecord),
        printed = R ++ "\n" ∧ Batch.ofContents config.input (fs.read config.input) = .ok batch ∧
        batch.capacity = 2 ^ depth ∧ records.map (·.claim) = batch.claims ∧
        (∀ index (record : ClaimRecord), records[index]? = some record →
          record.leafIndex.toNat = index ∧ record.root.text = R) ∧
        ∀ out, fs.Writable out →
          (∃ text, (dump config out).Leaves fs out text ∧
            (Text.lines text.toList).getLast? =
              some (Nat.toDigits 10 depth ++ ':' :: '0' :: ':' :: R.toList)) ∧
          (∃ text, (exportClaims config .all out).Leaves fs out text ∧
            ClaimRecord.listOfText text = .ok records) ∧
          ∀ index,
            (∀ record, records[index]? = some record →
              ∃ text, (exportClaims config (.one index) out).Leaves fs out text ∧
                ClaimRecord.ofText text = .ok record) ∧
            (batch.claims.length ≤ index →
              ((exportClaims config (.one index) out).run fs).2.result =
                .error (.exportClaim index (.indexOutOfRange index batch.claims.length)))) ∧
    ∀ e, ((root config).run fs).2.result = .error e → ∀ out,
      ((dump config out).run fs).2.result = .error e ∧
      ∀ selection, ((exportClaims config selection out).run fs).2.result = .error e := by
  cases hload : ((loadCommitment config).run fs).2.result with
  | error e =>
    have hroot : ((root config).run fs).2.result = .error e :=
      result_run_of_loadCommitment_error rfl hload
    refine ⟨fun printed hprinted => ?_, fun e' he out => ?_⟩
    · rw [hroot] at hprinted
      cases hprinted
    · obtain rfl := Except.error.inj (hroot.symm.trans he)
      refine ⟨result_run_of_loadCommitment_error rfl hload, fun selection => ?_⟩
      obtain ⟨f, hcommand⟩ := exists_command_exportClaims config selection out
      exact result_run_of_loadCommitment_error hcommand hload
  | ok k =>
    have hprints := result_run_root hload
    refine ⟨fun printed hprinted => ?_, fun e he => ?_⟩
    · obtain ⟨batch, hbatch, hcommit⟩ := exists_batch_of_loadCommitment hload
      obtain ⟨hk, -, hclaims, hcapacity⟩ := Commitment.commit_eq_ok_iff.mp hcommit
      obtain ⟨records, hrecords, hfields, hplace⟩ := hk.exists_records
      refine ⟨k.root.text, batch, k.tree.depth, records,
        Except.ok.inj (hprinted.symm.trans hprints), hbatch, ?_, hfields.trans hclaims,
        fun index record hrecord => ?_, fun out hout => ⟨exists_dump_leaves hload hout,
          exists_exportClaims_all_leaves hload hrecords hout, fun index =>
            ⟨fun record hrecord => ?_, fun hindex => ?_⟩⟩⟩
      · rw [← hcapacity, hk.perfect.leafCount_eq]
      · obtain ⟨-, hroot, hindex⟩ := hplace index record hrecord
        exact ⟨hindex, congrArg Node.text hroot⟩
      · exact exists_exportClaims_one_leaves hload (hplace index record hrecord).1 hout
      · rw [← hclaims] at hindex ⊢
        exact result_run_exportClaims_beyond hload hindex
    · rw [hprints] at he
      cases he

theorem writable_holding (b : BatchInput) : (Files.holding b).Writable "tree.txt" := by
  refine ⟨⟨["w"]⟩, "tree.txt", ⟨⟨⟨[], rfl, rfl⟩, rfl, by decide⟩, nofun, nofun⟩, rfl, rfl, ?_⟩
  decide

theorem run_agree_single :
    let fs := Files.holding single
    let config : Config := ⟨"batch.json", .v1, true⟩
    (∃ R depth record, ((root config).run fs).2.result = .ok (R ++ "\n") ∧
      (∃ text, (dump config "tree.txt").Leaves fs "tree.txt" text ∧
        (Text.lines text.toList).getLast? =
          some (Nat.toDigits 10 depth ++ ':' :: '0' :: ':' :: R.toList)) ∧
      (∃ text, (exportClaims config .all "tree.txt").Leaves fs "tree.txt" text ∧
        ClaimRecord.listOfText text = .ok [record]) ∧
      (∃ text, (exportClaims config (.one 0) "tree.txt").Leaves fs "tree.txt" text ∧
        ClaimRecord.ofText text = .ok record)) ∧
    ((dump ⟨"absent.json", .v1, true⟩ "tree.txt").run fs).2.result =
      .error (.load (.file "absent.json" .notFound)) := by
  obtain ⟨k, hload⟩ := loadCommitment_single
  have hprints := result_run_root (hload _ _ rfl (Files.read_holding single))
  obtain ⟨R, batch, depth, records, hR, hbatch, -, hclaims, -, hleaves⟩ :=
    (run_agree ⟨"batch.json", .v1, true⟩ (Files.holding single)).1 _ hprints
  obtain ⟨hdump, hall, hone⟩ := hleaves "tree.txt" (writable_holding single)
  obtain rfl := Except.ok.inj (ofContents_single.symm.trans hbatch)
  obtain ⟨record, rfl⟩ : ∃ record, records = [record] := by
    apply List.length_eq_one_iff.mp
    simpa using congrArg List.length hclaims
  have habsent := (run_agree ⟨"absent.json", .v1, true⟩ (Files.holding single)).2 _ rfl "tree.txt"
  exact ⟨⟨R, depth, record, hR ▸ hprints, hdump, hall, (hone 0).1 record rfl⟩, habsent.1⟩

theorem dump_single_name_too_long :
    let fs := Files.holding single
    let config : Config := ⟨"batch.json", .v1, true⟩
    let out := String.ofList (List.replicate 252 'a')
    (∃ printed, ((root config).run fs).2.result = .ok printed) ∧
      fs.WritableAt out ⟨["w"]⟩ out ∧
      ((dump config out).run fs).2.result =
        .error (.write (.create (out ++ ".tmp") .tooLong)) := by
  intro fs config out
  obtain ⟨k, hloads⟩ := loadCommitment_single
  have hload := hloads config fs rfl (Files.read_holding single)
  have hchars : out.toList = List.replicate 252 'a' := String.toList_ofList
  have hpart : Files.parts out = [out] := by
    apply Files.parts_of_slash_not_mem
    rw [hchars]
    decide +kernel
  have hwalk : fs.walk out [] = .ok ⟨["w"]⟩ := by
    rw [Files.walk, Files.isAbsolute, hchars]
    rfl
  have hnamed (name : String) (hsize : name.utf8ByteSize ≠ 10) : name ≠ "batch.json" :=
    fun h => hsize (congrArg String.utf8ByteSize h)
  have hwritable : fs.WritableAt out ⟨["w"]⟩ out :=
    ⟨⟨⟨[], hpart, hwalk⟩, by decide +kernel, by decide +kernel⟩,
      Files.free_holding _ (hnamed _ (by decide +kernel)),
      Files.free_holding _ (hnamed _ (by decide +kernel))⟩
  have hwaiting : Files.waitingPath out out = out ++ ".tmp" :=
    Files.sibling_of_parts hpart hwritable.not_idle _
  have hfits : Files.checkPath (Files.waitingPath out out) = .ok () := by
    have hnul : ¬(out ++ ".tmp").toList.contains '\x00' = true := by
      rw [String.toList_append, hchars]
      decide +kernel
    rw [hwaiting, Files.checkPath, if_neg hnul, if_neg (by decide +kernel),
      if_neg (by decide +kernel)]
  have hwritten := hwritable.writeAtomic_tooLong hfits (by decide +kernel) k.tree.dump.toUTF8
  refine ⟨⟨_, result_run_root hload⟩, hwritable, ?_⟩
  rw [← hwaiting, result_run_dump hload, Option.bind_none, hwritten]
  rfl

end Task

end ClaimTree
