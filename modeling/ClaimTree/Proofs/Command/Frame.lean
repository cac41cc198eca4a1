import ClaimTree.Proofs.Command.Run
import ClaimTree.Proofs.Files.Attempt

namespace ClaimTree.Task

/-- A task that fails before its write leaves all files alone; one whose write fails, in whichever
step, leaves all but the waiting contents alone, and one that succeeds all but the file, with
nothing left waiting. -/
theorem run_frame (task : Task) {out : String} (hout : task.out? = some out) (fs : Files)
    (fault : Option CommandFault) :
    (∀ e, (task.run fs fault).2.result = .error e → (∀ cause, e ≠ .write cause) →
      (task.run fs fault).1 = fs) ∧
    (∀ cause, (task.run fs fault).2.result = .error (.write cause) →
      (∀ place, ¬fs.WaitsAt out place →
        Files.entry? (task.run fs fault).1 place = fs.entry? place) ∧
      ∀ place, fs.locate out = .ok place →
        Files.entry? (task.run fs fault).1 place = fs.entry? place) ∧
    ∀ printed, (task.run fs fault).2.result = .ok printed →
      ∃ (dir : Files.Place) (name : String), fs.locate out = .ok (dir.child name) ∧
        fs.WaitsAt out (dir.child (name ++ ".tmp")) ∧
        Files.entry? (task.run fs fault).1 (dir.child (name ++ ".tmp")) = none ∧
        ∀ place, place ≠ dir.child name → place ≠ dir.child (name ++ ".tmp") →
          Files.entry? (task.run fs fault).1 place = fs.entry? place := by
  rw [run]
  rcases (replaces_command hout).run_cases fs fault with
    ⟨hfiles, e, hresult, hother⟩ | ⟨text, printed, hfiles, hresult⟩
  · rw [hfiles, hresult]
    refine ⟨fun _ _ _ => rfl, fun _ _ => ⟨fun _ _ => rfl, fun _ _ => rfl⟩, fun printed hok => ?_⟩
    cases hok
  have hattempt := Files.attempt_writeAtomic fs out text.toUTF8 (fault.bind (·.onWrite?))
  rw [hfiles, hresult]
  generalize fs.writeAtomic out text.toUTF8 (fault.bind (·.onWrite?)) = done at hattempt ⊢
  obtain ⟨fs', written⟩ := done
  cases written with
  | error cause =>
    have hframe {place : Files.Place} (hplace : ¬fs.WaitsAt out place) :
        fs'.entry? place = fs.entry? place := hattempt.entry?_of_error hplace
    refine ⟨fun e he hother => absurd (Except.error.inj he).symm (hother cause),
      fun _ _ => ⟨fun place => hframe, fun place hlocate => hframe fun hwaits =>
        hwaits.ne_of_locate hlocate rfl⟩, fun printed hok => ?_⟩
    cases hok
  | ok =>
    refine ⟨fun e he => ?_, fun cause he => ?_, fun printed _ => ?_⟩
    · cases he
    · cases he
    obtain ⟨dir, name, hwritable, hfits, rfl⟩ := hattempt.eq_replaced_of_ok
    exact ⟨dir, name, (hwritable.names hfits).locate_eq, hwritable.waitsAt hfits,
      hwritable.entry?_replaced_waiting _, fun place => Files.entry?_replaced_of_ne⟩

/-- An input that is missing and one that is refused, a directory in the way of the output, a disk
that is full, and nothing of the kind. -/
theorem run_frame_single :
    let fs := ((Files.holding single).put ⟨["w", "dir"]⟩ .directory).put ⟨["w", "tree.txt"]⟩
      (.file "old".toUTF8)
    let config : Config := ⟨"batch.json", .v1, true⟩
    let full : CommandFault := .write (.write 3 .refused)
    ((dump ⟨"absent.json", .v1, true⟩ "tree.txt").run fs).1 = fs ∧
      ((dump config "tree.txt").run fs (some (.read .refused))).1 = fs ∧
      (((dump config "dir").run fs).2.result = .error (.write (.move "dir" .isADirectory)) ∧
        Files.entry? ((dump config "dir").run fs).1 ⟨["w", "dir"]⟩ = some .directory) ∧
      (((dump config "tree.txt").run fs full).2.result =
          .error (.write (.write "tree.txt.tmp" .refused)) ∧
        Files.entry? ((dump config "tree.txt").run fs full).1 ⟨["w", "tree.txt"]⟩ =
          some (.file "old".toUTF8)) ∧
      ((dump config "tree.txt").run fs).2.result = .ok "" ∧
        ∃ waiting, fs.WaitsAt "tree.txt" waiting ∧
          Files.entry? ((dump config "tree.txt").run fs).1 waiting = none := by
  intro fs config full
  obtain ⟨k, hloads⟩ := loadCommitment_single
  have hload := hloads config fs rfl rfl
  have hloadFull : ((loadCommitment config).run fs full).2.result = .ok k := by
    rw [(reads_loadCommitment config).run_write]
    exact hload
  have hstuck : ((dump config "dir").run fs).2.result =
      .error (.write (.move "dir" .isADirectory)) := result_run_dump hload
  have hfull : ((dump config "tree.txt").run fs full).2.result =
      .error (.write (.write "tree.txt.tmp" .refused)) := result_run_dump hloadFull
  have hdone : ((dump config "tree.txt").run fs).2.result = .ok "" := result_run_dump hload
  refine ⟨?_, ?_, ⟨hstuck, ?_⟩, ⟨hfull, ?_⟩, hdone, ?_⟩
  · exact (run_frame (dump ⟨"absent.json", .v1, true⟩ "tree.txt") rfl fs none).1 _ rfl nofun
  · exact (run_frame (dump config "tree.txt") rfl fs (some (.read .refused))).1 _ rfl nofun
  · exact ((run_frame (dump config "dir") rfl fs none).2.1 _ hstuck).2 ⟨["w", "dir"]⟩ rfl
  · exact ((run_frame (dump config "tree.txt") rfl fs full).2.1 _ hfull).2 ⟨["w", "tree.txt"]⟩ rfl
  · obtain ⟨dir, name, -, hwaits, hgone, -⟩ :=
      (run_frame (dump config "tree.txt") rfl fs none).2.2 _ hdone
    exact ⟨_, hwaits, hgone⟩

end ClaimTree.Task
