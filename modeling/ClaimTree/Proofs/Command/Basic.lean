import ClaimTree.Command.Basic
import ClaimTree.Proofs.Batch.Document

namespace ClaimTree

namespace Logged

variable {α ε : Type}

@[simp] theorem result_log (event : Event) : (log event).result = .ok () := rfl

@[simp] theorem result_of (cause : ε → CommandError) (x : Except ε α) :
    (of cause x).result = x.mapError cause := rfl

end Logged

namespace Command

section Run

variable {α β : Type} {fs : Files} {fault : Option CommandFault}

/-- What two runs come to, the second of which starts where the first one succeeded. -/
def followedBy (first : Files × Logged α) (second : α → Files → Files × Logged β) :
    Files × Logged β :=
  match first.2.result with
  | .ok a => ((second a first.1).1, (second a first.1).2.after first.2.events)
  | .error e => (first.1, ⟨first.2.events, .error e⟩)

/-- The steps of two commands are carried out one after the other. -/
theorem run_bind (x : Command α) (f : α → Command β) (fs : Files) (fault : Option CommandFault) :
    (x >>= f).run fs fault = followedBy (x.run fs fault) fun a fs => (f a).run fs fault := by
  change (x.bind f).run fs fault = _
  induction x generalizing fs with
  | done result => cases result <;> rfl
  | log event rest ih =>
    rw [bind, run, run, ih]
    obtain ⟨fs', events, result⟩ := rest.run fs fault
    cases result <;> rfl
  | read path rest ih => exact ih _ fs
  | write path contents rest ih => exact ih _ _

@[simp] theorem run_pure (a : α) : (pure a : Command α).run fs fault = (fs, ⟨[], .ok a⟩) := rfl

@[simp] theorem run_put (path text : String) :
    (put path text).run fs fault =
      let attempt := fs.writeAtomic path text.toUTF8 (fault.bind (·.onWrite?))
      (attempt.1, ⟨[], attempt.2.mapError .write⟩) := rfl

@[simp] theorem run_lift (x : Logged α) : (liftM x : Command α).run fs fault = (fs, x) := by
  obtain ⟨events, result⟩ := x
  change (events.foldr log (done result)).run fs fault = _
  induction events with
  | nil => rfl
  | cons event events ih =>
    rw [List.foldr_cons, run, ih]
    rfl

theorem run_contents_bind (path : String) (f : Except FileError ByteArray → Command β) :
    (contents path >>= f).run fs = (f (fs.read path)).run fs := rfl

theorem run_lift_bind (x : Logged α) (f : α → Command β) :
    (liftM x >>= f).run fs fault =
      followedBy (fs, x) fun a fs => (f a).run fs fault := by
  rw [run_bind, run_lift]

@[simp] theorem result_run_lift_bind (x : Logged α) (f : α → Command β) :
    ((liftM x >>= f).run fs fault).2.result =
      x.result >>= fun a => ((f a).run fs fault).2.result := by
  rw [run_lift_bind, followedBy]
  cases x.result <;> rfl

end Run

/-- The steps leave all files alone, and no failure is put down to a write. -/
inductive Reads {α : Type} : Command α → Prop
  | succeeds (a : α) : Reads (.done (.ok a))
  | fails {e : CommandError} : (∀ cause, e ≠ .write cause) → Reads (.done (.error e))
  | log {event : Event} {rest : Command α} : Reads rest → Reads (.log event rest)
  | read {path : String} {rest : Except FileError ByteArray → Command α} :
    (∀ contents, Reads (rest contents)) → Reads (.read path rest)

namespace Reads

variable {α β : Type} {x : Command α} {f : α → Command β}

theorem bind (h : x.Reads) (hf : ∀ a, (f a).Reads) : (x >>= f).Reads := by
  induction h with
  | succeeds a => exact hf a
  | fails hother => exact .fails hother
  | log _ ih => exact .log ih
  | read _ ih => exact .read ih

theorem lift {x : Logged α} (h : ∀ cause, x.result ≠ .error (.write cause)) :
    (liftM x : Command α).Reads := by
  obtain ⟨events, result⟩ := x
  change (events.foldr Command.log (.done result)).Reads
  induction events with
  | nil =>
    cases result with
    | ok a => exact .succeeds a
    | error e => exact .fails fun cause he => h cause (congrArg Except.error he)
  | cons event events ih => exact .log (ih h)

/-- A result may fail, as long as its failures are put down to something other than a write. -/
theorem lift_of {ε : Type} {cause : ε → CommandError}
    (hcause : ∀ e written, cause e ≠ .write written) (x : Except ε α) :
    (liftM (Logged.of cause x) : Command α).Reads := by
  refine .lift fun written h => ?_
  cases x with
  | ok a => cases h
  | error e => exact hcause e written (Except.error.inj h)

theorem run (h : x.Reads) (fs : Files) (fault : Option CommandFault) :
    (x.run fs fault).1 = fs ∧ ∀ cause, (x.run fs fault).2.result ≠ .error (.write cause) := by
  induction h with
  | succeeds a => exact ⟨rfl, nofun⟩
  | fails hother => exact ⟨rfl, fun cause he => hother cause (Except.error.inj he)⟩
  | log _ ih => exact ih
  | read _ ih => exact ih _

/-- A fault that keeps a file from being written makes no difference. -/
theorem run_write (h : x.Reads) (fs : Files) (fault : WriteFault) :
    x.run fs (some (.write fault)) = x.run fs := by
  induction h with
  | succeeds a => rfl
  | fails hother => rfl
  | @log event rest _ ih => rw [Command.run, Command.run, ih]
  | read _ ih => exact ih _

end Reads

end Command

theorem result_checkRoot (declared computed : Node) (allowMismatch : Bool) :
    (checkRoot declared computed allowMismatch).result =
      if declared = computed ∨ allowMismatch = true then .ok ()
      else .error (.rootMismatch declared computed) := by
  by_cases hroot : declared = computed
  · rw [checkRoot, if_pos hroot, if_pos (.inl hroot)]
    rfl
  · cases allowMismatch with
    | true => rw [checkRoot, if_neg hroot, if_pos rfl, if_pos (.inr rfl)]; rfl
    | false =>
      have hneither : ¬(declared = computed ∨ false = true) := by simp [hroot]
      rw [checkRoot, if_neg hroot, if_neg Bool.false_ne_true, if_neg hneither]
      rfl

section LoadCommitment

variable {config : Config} {fs : Files}

/-- A commitment is made without touching a file. -/
theorem reads_loadCommitment (config : Config) : (loadCommitment config).Reads := by
  have hload (contents : Except FileError ByteArray) :
      (liftM (Logged.of .load (Batch.ofContents config.input contents)) : Command Batch).Reads :=
    .lift_of (by simp) _
  have hcommit (batch : Batch) :
      (liftM (Logged.of .commit (Commitment.commit config.version batch.claims batch.capacity)) :
        Command Commitment).Reads := .lift_of (by simp) _
  refine .bind (.read fun contents => .succeeds contents) fun contents => ?_
  refine .bind (hload contents) fun batch => .bind (.lift nofun) fun _ => ?_
  refine .bind (hcommit batch) fun k => .bind (.lift nofun) fun _ => ?_
  refine .bind (.lift fun cause => ?_) fun _ => .succeeds k
  rw [result_checkRoot]
  split <;> nofun

/-- A batch is loaded, then committed to, and then its root is checked. -/
theorem result_loadCommitment (config : Config) (fs : Files) :
    ((loadCommitment config).run fs).2.result = do
      let batch ← (Batch.ofContents config.input (fs.read config.input)).mapError .load
      let k ← (Commitment.commit config.version batch.claims batch.capacity).mapError .commit
      (checkRoot batch.declaredRoot k.root config.allowRootMismatch).result
      return k := by
  simp only [loadCommitment, Command.run_contents_bind, Command.result_run_lift_bind,
    Logged.result_of, Logged.result_log, Command.run_pure]
  rfl

/-- A commitment that was loaded is the one to the batch in the file. -/
theorem exists_batch_of_loadCommitment {k : Commitment}
    (h : ((loadCommitment config).run fs).2.result = .ok k) :
    ∃ batch, Batch.ofContents config.input (fs.read config.input) = .ok batch ∧
      Commitment.commit config.version batch.claims batch.capacity = .ok k := by
  rw [result_loadCommitment] at h
  obtain ⟨batch, hbatch, h⟩ := bind_eq_ok_iff.mp h
  obtain ⟨k', hcommit, h⟩ := bind_eq_ok_iff.mp h
  obtain ⟨-, -, h⟩ := bind_eq_ok_iff.mp h
  obtain rfl := Except.ok.inj h
  exact ⟨batch, mapError_eq_ok_iff.mp hbatch, mapError_eq_ok_iff.mp hcommit⟩

theorem result_loadCommitment_eq_ok_iff {b : BatchInput} {contents : ByteArray} {path : String}
    {version : LeafVersion} {k : Commitment} (hheld : b.HeldBy contents)
    (hread : fs.read path = .ok contents) :
    ((loadCommitment ⟨path, version, true⟩).run fs).2.result = .ok k ↔
      ∃ batch, b.toBatch = .ok batch ∧
        Commitment.commit version batch.claims batch.capacity = .ok k := by
  simp only [result_loadCommitment, hread, hheld.ofContents, bind_eq_ok_iff, mapError_eq_ok_iff,
    result_checkRoot]
  simp [pure, Except.pure]

/-- Nothing but the batch in the file counts. -/
theorem run_loadCommitment_congr {path path' : String}
    (h : Batch.ofContents path (fs.read path) = Batch.ofContents path' (fs.read path'))
    (version : LeafVersion) (allow : Bool) :
    (loadCommitment ⟨path, version, allow⟩).run fs =
      (loadCommitment ⟨path', version, allow⟩).run fs := by
  simp only [loadCommitment, Command.run_contents_bind, h]

/-- From a document with a fault nothing is loaded. -/
theorem ofContents_of_fault {text path : String} {f : Json.Fault}
    (h : BatchInput.ofText text = .error f) (hread : fs.read path = .ok text.toUTF8) :
    Batch.ofContents path (fs.read path) = .error (.document path f) ∧
    ∀ config : Config, config.input = path →
      (loadCommitment config).run fs = (fs, ⟨[], .error (.load (.document path f))⟩) := by
  have hcontents : Batch.ofContents path (fs.read path) = .error (.document path f) := by
    simp only [hread, Batch.ofContents, Except.mapError, bind, Except.bind, fromUTF8?_toUTF8,
      Batch.ofText, h]
  refine ⟨hcontents, fun config hinput => ?_⟩
  subst hinput
  rw [loadCommitment, Command.run_contents_bind, hcontents]
  rfl

end LoadCommitment

end ClaimTree
