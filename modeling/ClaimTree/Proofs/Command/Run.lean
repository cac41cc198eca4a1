import ClaimTree.Proofs.Command.Basic
import ClaimTree.Proofs.Commitment.Basic
import ClaimTree.Proofs.Files.Basic

namespace ClaimTree

namespace Command

variable {α β : Type} {x : Command α} {f : α → Command β} {fs : Files}
  {fault : Option CommandFault} {out : String}

/-- The steps leave all files alone up to a single write, the one to `out`, and none of those behind
it can fail. -/
inductive Replaces (out : String) : Command α → Prop
  | fails {e : CommandError} : (∀ cause, e ≠ .write cause) → Replaces out (.done (.error e))
  | log {event : Event} {rest : Command α} : Replaces out rest → Replaces out (.log event rest)
  | read {path : String} {rest : Except FileError ByteArray → Command α} :
    (∀ contents, Replaces out (rest contents)) → Replaces out (.read path rest)
  | put (text : String) (done : Logged α) {a : α} : done.result = .ok a →
    Replaces out (put out text >>= fun _ => liftM done)

theorem Reads.bind_replaces (h : x.Reads) (hf : ∀ a, (f a).Replaces out) :
    (x >>= f).Replaces out := by
  induction h with
  | succeeds a => exact hf a
  | fails hother => exact .fails hother
  | log _ ih => exact .log ih
  | read _ ih => exact .read ih

theorem run_put_bind {text : String} {done : Logged α} {a : α} (hdone : done.result = .ok a) :
    let attempt := fs.writeAtomic out text.toUTF8 (fault.bind (·.onWrite?))
    ((put out text >>= fun _ => liftM done).run fs fault).1 = attempt.1 ∧
      ((put out text >>= fun _ => liftM done).run fs fault).2.result =
        (attempt.2.mapError .write).map fun _ => a := by
  rw [run_bind, run_put]
  generalize fs.writeAtomic out text.toUTF8 (fault.bind (·.onWrite?)) = attempt
  obtain ⟨fs', written⟩ := attempt
  cases written with
  | error cause => exact ⟨rfl, rfl⟩
  | ok =>
    dsimp only [followedBy, Except.mapError]
    rw [run_lift]
    exact ⟨rfl, hdone⟩

/-- Either nothing has been written and something else is to blame, or the files are those that the
write leaves. -/
theorem Replaces.run_cases (h : x.Replaces out) (fs : Files) (fault : Option CommandFault) :
    ((x.run fs fault).1 = fs ∧
      ∃ e, (x.run fs fault).2.result = .error e ∧ ∀ cause, e ≠ .write cause) ∨
    ∃ (text : String) (a : α),
      let attempt := fs.writeAtomic out text.toUTF8 (fault.bind (·.onWrite?))
      (x.run fs fault).1 = attempt.1 ∧
        (x.run fs fault).2.result = (attempt.2.mapError .write).map fun _ => a := by
  induction h with
  | fails hother => exact .inl ⟨rfl, _, rfl, hother⟩
  | log _ ih => exact ih
  | read _ ih => exact ih _
  | put text done hdone => exact .inr ⟨text, _, run_put_bind hdone⟩

theorem Reads.run_bind_of_ok {a : α} (h : x.Reads) (hok : (x.run fs fault).2.result = .ok a) :
    ((x >>= f).run fs fault).1 = ((f a).run fs fault).1 ∧
      ((x >>= f).run fs fault).2.result = ((f a).run fs fault).2.result := by
  rw [run_bind, followedBy, hok, (h.run fs fault).1]
  exact ⟨rfl, rfl⟩

theorem result_run_bind_of_error {e : CommandError} (h : (x.run fs fault).2.result = .error e) :
    ((x >>= f).run fs fault).2.result = .error e := by
  rw [run_bind, followedBy, h]

end Command

namespace Task

variable {task : Task} {fs : Files} {fault : Option CommandFault} {config : Config}
  {k : Commitment} {out text : String}

/-- The path that a task writes to; a root is only printed. -/
def out? : Task → Option String
  | root _ => none
  | dump _ out => some out
  | exportClaims _ _ out => some out

/-- Whatever is put out has been worked out before the file is written. -/
theorem replaces_command (hout : task.out? = some out) : task.command.Replaces out := by
  match task with
  | root config => cases hout
  | dump config out' =>
    obtain rfl := Option.some.inj hout
    exact (reads_loadCommitment config).bind_replaces fun k =>
      .put k.tree.dump ⟨[.dumpWritten k.tree.layers.length], .ok ""⟩ rfl
  | exportClaims config (.one index) out' =>
    obtain rfl := Option.some.inj hout
    refine (reads_loadCommitment config).bind_replaces fun k => ?_
    have hrecord : (liftM (Logged.of (.exportClaim index) (k.record index)) :
        Command ClaimRecord).Reads := .lift_of (by simp) _
    exact hrecord.bind_replaces fun record =>
      .put (record.toJson.text .pretty) ⟨[.recordWritten index record.receiver], .ok ""⟩ rfl
  | exportClaims config .all out' =>
    obtain rfl := Option.some.inj hout
    refine (reads_loadCommitment config).bind_replaces fun k => ?_
    have hrecords : (liftM (Logged.of .exportClaims k.records) :
        Command (List ClaimRecord)).Reads := .lift_of (by simp) _
    exact hrecords.bind_replaces fun records =>
      .put ((Json.array (records.map (·.toJson))).text .pretty)
        ⟨[.recordsWritten records.length], .ok ""⟩ rfl

/-- Once the commitment has been made, the file is written. -/
theorem run_of_loadCommitment {f : Commitment → Command String} (done : Logged String)
    (htask : task.command = loadCommitment config >>= f)
    (hput : f k = Command.put out text >>= fun _ => liftM done) (hdone : done.result = .ok "")
    (h : ((loadCommitment config).run fs fault).2.result = .ok k) :
    let attempt := fs.writeAtomic out text.toUTF8 (fault.bind (·.onWrite?))
    (task.run fs fault).1 = attempt.1 ∧
      (task.run fs fault).2.result = (attempt.2.mapError .write).map fun _ => "" := by
  obtain ⟨hfiles, hresult⟩ := (reads_loadCommitment config).run_bind_of_ok (f := f) h
  rw [run, htask, hfiles, hresult, hput]
  exact Command.run_put_bind hdone

/-- Once the commitment has been made, only the write can keep a tree from being dumped. -/
theorem result_run_dump (h : ((loadCommitment config).run fs fault).2.result = .ok k) :
    ((dump config out).run fs fault).2.result =
      ((fs.writeAtomic out k.tree.dump.toUTF8 (fault.bind (·.onWrite?))).2.mapError .write).map
        fun _ => "" :=
  (run_of_loadCommitment ⟨[.dumpWritten k.tree.layers.length], .ok ""⟩ rfl rfl rfl h).2

end Task

/-- A working directory with the document of one batch in it. -/
def Files.holding (b : BatchInput) : Files :=
  (empty ⟨["w"]⟩).put ⟨["w", "batch.json"]⟩ (.file (b.toJson.text .pretty).toUTF8)

theorem Files.read_holding (b : BatchInput) :
    (holding b).read "batch.json" = .ok (b.toJson.text .pretty).toUTF8 := rfl

theorem Files.free_holding (b : BatchInput) {name : String} (hname : name ≠ "batch.json") :
    entry? (holding b) (Place.child ⟨["w"]⟩ name) ≠ some .directory := by
  have hne : Place.child ⟨["w"]⟩ name ≠ Place.child ⟨["w"]⟩ "batch.json" :=
    fun h => hname (child_injective h)
  exact fun h => nomatch (entry?_put_of_ne hne _).symm.trans h

namespace Task

/-- A batch of one claim whose declared root is tolerated. -/
def single : BatchInput :=
  ⟨none, "0", 1, 1, [⟨none, "0x0000000000000000000000000000000000000000", "7", []⟩]⟩

theorem toBatch_single :
    single.toBatch = .ok ⟨.ofUint256 .zero, 1, [⟨none, .zero, .ofUInt64 7⟩]⟩ := by rfl

theorem ofContents_single :
    Batch.ofContents "batch.json" ((Files.holding single).read "batch.json") =
      .ok ⟨.ofUint256 .zero, 1, [⟨none, .zero, .ofUInt64 7⟩]⟩ := by
  rw [Files.read_holding, (single.heldBy_toJson .pretty).ofContents, toBatch_single]
  rfl

theorem loadCommitment_single :
    ∃ k, ∀ config fs, config = ⟨"batch.json", .v1, true⟩ →
      fs.read "batch.json" = .ok (single.toJson.text .pretty).toUTF8 →
      ((loadCommitment config).run fs).2.result = .ok k := by
  obtain ⟨k, hk⟩ : ∃ k, Commitment.commit .v1 [⟨none, .zero, .ofUInt64 7⟩] (2 ^ 0) = .ok k :=
    Commitment.exists_commit (by decide) (by decide) fun claim hclaim => nofun
  refine ⟨k, fun config fs hconfig hread => ?_⟩
  rw [hconfig, result_loadCommitment_eq_ok_iff (single.heldBy_toJson .pretty) hread]
  exact ⟨_, toBatch_single, hk⟩

end Task

end ClaimTree
