import ClaimTree.Proofs.Files.Attempt
import Mathlib.Data.List.Induction

namespace ClaimTree.Files

/-- The same places hold directories. -/
def SameDirectories (fs fs' : Files) : Prop := KeepsDirectories fs fs' ∧ KeepsDirectories fs' fs

/-- The path leads to this place. -/
def leadsTo (fs : Files) (path : String) (place : Place) : Bool :=
  (fs.locate path).toOption == some place

section Directories

variable {fs fs' fs'' : Files} {path : String} {place : Place} {contents : ByteArray}
  {done : Files × Except WriteError Unit}

theorem SameDirectories.refl (fs : Files) : SameDirectories fs fs :=
  ⟨.refl fs, .refl fs⟩

theorem SameDirectories.trans (h : SameDirectories fs fs') (h' : SameDirectories fs' fs'') :
    SameDirectories fs fs'' :=
  ⟨KeepsDirectories.trans h.1 h'.1, KeepsDirectories.trans h'.2 h.2⟩

theorem SameDirectories.locate_iff (h : SameDirectories fs fs') :
    fs'.locate path = .ok place ↔ fs.locate path = .ok place :=
  ⟨locate_of_keeps h.2, locate_of_keeps h.1⟩

theorem SameDirectories.waitsAt_iff (h : SameDirectories fs fs') :
    fs'.WaitsAt path place ↔ fs.WaitsAt path place :=
  ⟨fun hwaits => hwaits.of_keeps h.2, fun hwaits => hwaits.of_keeps h.1⟩

theorem leadsTo_iff : fs.leadsTo path place = true ↔ fs.locate path = .ok place := by
  rw [leadsTo, beq_iff_eq]
  cases fs.locate path <;> simp [Except.toOption]

theorem WritableAt.sameDirectories_replaced {dir : Place} {name : String}
    (h : fs.WritableAt path dir name) (contents : ByteArray) :
    SameDirectories fs (fs.replaced dir name contents) := by
  refine ⟨h.keepsDirectories_replaced contents, rfl, fun place hplace => ?_⟩
  by_cases hname : place = dir.child name
  · rw [hname, h.entry?_replaced_self] at hplace
    cases hplace
  by_cases hwaiting : place = dir.child (name ++ ".tmp")
  · rw [hwaiting, h.entry?_replaced_waiting] at hplace
    cases hplace
  rwa [entry?_replaced_of_ne hname hwaiting] at hplace

theorem Attempt.sameDirectories (h : Attempt fs path contents done) :
    SameDirectories fs done.1 := by
  cases h with
  | unnamed => exact .refl fs
  | blocked => exact .refl fs
  | stuck _ _ hfree _ =>
    -- A file has been put where no directory was.
    exact ⟨keepsDirectories_put hfree _, keepsDirectories_of_put_file fs _ _⟩
  | done hwritable _ => exact hwritable.sameDirectories_replaced contents

/-- What an attempt leaves at every place but the one where its contents wait. -/
theorem Attempt.entry?_eq (h : Attempt fs path contents done)
    (hplace : ¬fs.WaitsAt path place) :
    entry? done.1 place =
      if done.2.isOk && fs.leadsTo path place then some (.file contents)
      else fs.entry? place := by
  obtain ⟨fs', outcome⟩ := done
  cases outcome with
  | error e => exact h.entry?_of_error hplace
  | ok =>
    obtain ⟨dir, name, hwritable, hfits, rfl⟩ := h.eq_replaced_of_ok
    have hlocate := (hwritable.names hfits).locate_eq
    change _ = if fs.leadsTo path place then some (.file contents) else fs.entry? place
    by_cases hname : place = dir.child name
    · rw [hname, if_pos (leadsTo_iff.mpr hlocate), hwritable.entry?_replaced_self]
    · have hleads : ¬fs.leadsTo path place = true := by
        intro hleads
        exact hname (Except.ok.inj ((leadsTo_iff.mp hleads).symm.trans hlocate))
      rw [if_neg hleads, entry?_replaced_of_ne hname]
      rintro rfl
      exact hplace (hwritable.waitsAt hfits)

end Directories

/-- Contents that are to replace the file at a path, and what goes wrong on their way. -/
structure Write where
  path : String
  contents : ByteArray
  fault : Option WriteFault

/-- Files together with the attempts made on them and what came of each, the last one first. -/
structure History where
  files : Files
  past : List (Write × Except WriteError Unit)

namespace History

def attempt (h : History) (w : Write) : History :=
  let written := h.files.writeAtomic w.path w.contents w.fault
  ⟨written.1, (w, written.2) :: h.past⟩

/-- All attempts in order; one that fails does not keep the others from being made. -/
def run (fs : Files) (writes : List Write) : History := writes.foldl attempt ⟨fs, []⟩

/-- The contents of the last attempt that succeeded at a place. -/
def last? (h : History) (fs : Files) (place : Place) : Option ByteArray :=
  (h.past.find? fun made => made.2.isOk && fs.leadsTo made.1.path place).map (·.1.contents)

variable {fs : Files} {h : History}

theorem run_concat (fs : Files) (writes : List Write) (w : Write) :
    run fs (writes ++ [w]) = (run fs writes).attempt w := List.foldl_append

theorem attempt_files (h : History) (w : Write) :
    (h.attempt w).files = (h.files.writeAtomic w.path w.contents w.fault).1 := rfl

theorem last?_attempt (h : History) (w : Write) (place : Place) :
    (h.attempt w).last? fs place =
      if (h.files.writeAtomic w.path w.contents w.fault).2.isOk && fs.leadsTo w.path place then
        some w.contents
      else h.last? fs place := by
  rw [last?, attempt, List.find?_cons]
  cases (h.files.writeAtomic w.path w.contents w.fault).2.isOk && fs.leadsTo w.path place with
  | false => rfl
  | true => rfl

theorem past_run (fs : Files) (writes : List Write) :
    (run fs writes).past.map (·.1) = writes.reverse := by
  induction writes using List.reverseRecOn with
  | nil => rfl
  | append_singleton writes w ih =>
    rw [run_concat, attempt, List.map_cons, ih, List.reverse_append]
    rfl

/-- Nothing has been written where no path leads. -/
theorem last?_run_eq_none {writes : List Write} {place : Place}
    (hplace : ∀ w ∈ writes, fs.locate w.path ≠ .ok place) :
    (run fs writes).last? fs place = none := by
  rw [last?, Option.map_eq_none_iff, List.find?_eq_none]
  intro made hmade hlast
  have hpast : made.1 ∈ (run fs writes).past.map (·.1) := List.mem_map_of_mem hmade
  rw [past_run, List.mem_reverse] at hpast
  exact hplace made.1 hpast (leadsTo_iff.mp (Bool.and_eq_true_iff.mp hlast).2)

/-- After these writes the directories are those of the start, and every place where no contents
waited on their way holds what was last written there, or what it held at the start. -/
structure Kept (fs : Files) (writes : List Write) (h : History) : Prop where
  sameDirectories : SameDirectories fs h.files
  entry?_eq : ∀ place, (∀ w ∈ writes, ¬fs.WaitsAt w.path place) →
    h.files.entry? place = ((h.last? fs place).map .file).or (fs.entry? place)

theorem Kept.attempt {writes : List Write} (hkept : Kept fs writes h) (w : Write) :
    Kept fs (writes ++ [w]) (h.attempt w) := by
  have hattempt := attempt_writeAtomic h.files w.path w.contents w.fault
  refine ⟨hkept.sameDirectories.trans hattempt.sameDirectories, fun place hplace => ?_⟩
  have hpast : ∀ v ∈ writes, ¬fs.WaitsAt v.path place :=
    fun v hv => hplace v (List.mem_append_left _ hv)
  have hwaiting : ¬h.files.WaitsAt w.path place := by
    rw [hkept.sameDirectories.waitsAt_iff]
    exact hplace w (List.mem_append_right _ List.mem_cons_self)
  have hleads : h.files.leadsTo w.path place = fs.leadsTo w.path place := by
    rw [Bool.eq_iff_iff, leadsTo_iff, leadsTo_iff, hkept.sameDirectories.locate_iff]
  rw [attempt_files, hattempt.entry?_eq hwaiting, last?_attempt, hleads]
  split
  · rfl
  · exact hkept.entry?_eq place hpast

theorem kept_run (fs : Files) (writes : List Write) : Kept fs writes (run fs writes) := by
  -- From the end: what a run keeps is kept by one attempt more.
  induction writes using List.reverseRecOn with
  | nil => exact ⟨.refl fs, fun _ _ => rfl⟩
  | append_singleton writes w ih =>
    rw [run_concat]
    exact ih.attempt w

/-- No path leads to where the contents for another one wait. -/
def Apart (fs : Files) (writes : List Write) : Prop :=
  ∀ v ∈ writes, ∀ w ∈ writes, ∀ place, fs.locate v.path = .ok place → ¬fs.WaitsAt w.path place

/-- The names at the ends of the paths tell that they are apart. -/
theorem apart_of_names {writes : List Write} {names : List String}
    (hnames : writes.map (fileName? ·.path) = names.map some)
    (h : ∀ name ∈ names, ∀ other ∈ names, name ≠ other ++ ".tmp") (fs : Files) :
    Apart fs writes := by
  have hnamed : ∀ v ∈ writes, ∃ name ∈ names, fileName? v.path = some name := by
    intro v hv
    have hmem : fileName? v.path ∈ names.map some := by
      rw [← hnames]
      exact List.mem_map_of_mem hv
    obtain ⟨name, hname, heq⟩ := List.mem_map.mp hmem
    exact ⟨name, hname, heq.symm⟩
  rintro v hv w hw place hplace ⟨other, hother, hwaiting⟩
  obtain ⟨name, hname, hv⟩ := hnamed v hv
  obtain ⟨other', hmem, hw⟩ := hnamed w hw
  obtain rfl := Option.some.inj (hother.symm.trans hw)
  obtain ⟨dir, rfl⟩ := exists_dir_of_locate hv hplace
  obtain ⟨dir', heq⟩ := exists_dir_of_locate (fileName?_waitingPath hother) hwaiting
  exact h name hname other hmem (child_injective heq)

/-- At every moment of a run each file holds what was written to it last, whatever failed in
between. Nothing else changes but the places where contents wait. There nothing is found after an
attempt that succeeded; all of the contents are found when only the move has failed, and nothing but
their beginning when they could not all be put there. -/
theorem run_keeps_last_write {writes done rest : List Write} (hapart : Apart fs writes)
    (hsplit : writes = done ++ rest) :
    (∀ path place,
      (run fs done).files.locate path = .ok place ↔ fs.locate path = .ok place) ∧
    (∀ w ∈ writes, ∀ place, fs.locate w.path = .ok place →
      entry? (run fs done).files place =
        (((run fs done).last? fs place).map .file).or (fs.entry? place)) ∧
    (∀ place, (∀ w ∈ done, fs.locate w.path ≠ .ok place ∧ ¬fs.WaitsAt w.path place) →
      entry? (run fs done).files place = fs.entry? place) ∧
    ∀ w later, rest = w :: later → ∀ fs' outcome,
      (run fs done).files.writeAtomic w.path w.contents w.fault = (fs', outcome) →
      (outcome = .ok () →
        ∃ waiting, fs.WaitsAt w.path waiting ∧ fs'.entry? waiting = none) ∧
      (outcome = .error .noFileName ∨ (∃ path cause, outcome = .error (.create path cause)) →
        fs' = (run fs done).files) ∧
      ((∃ cause, outcome = .error (.sync cause)) ∨
          (∃ path cause, outcome = .error (.move path cause)) →
        ∃ waiting, fs.WaitsAt w.path waiting ∧
          fs'.entry? waiting = some (.file w.contents)) ∧
      ((∃ path cause, outcome = .error (.write path cause)) ∨
          (∃ cause, outcome = .error (.flush cause)) →
        ∃ waiting arrived, fs.WaitsAt w.path waiting ∧
          fs'.entry? waiting = some (.file (w.contents.extract 0 arrived))) := by
  subst hsplit
  have hkept := kept_run fs done
  refine ⟨fun path place => hkept.sameDirectories.locate_iff, ?_, ?_, ?_⟩
  · intro w hw place hlocate
    refine hkept.entry?_eq place fun v hv => ?_
    exact hapart w hw v (List.mem_append_left rest hv) place hlocate
  · intro place hplace
    rw [hkept.entry?_eq place fun w hw => (hplace w hw).2,
      last?_run_eq_none fun w hw => (hplace w hw).1]
    rfl
  · intro w later _ fs' outcome houtcome
    have hattempt := attempt_writeAtomic (run fs done).files w.path w.contents w.fault
    rw [houtcome] at hattempt
    have hwaits {waiting : Place} : (run fs done).files.WaitsAt w.path waiting →
        fs.WaitsAt w.path waiting := hkept.sameDirectories.waitsAt_iff.mp
    cases hattempt with
    | unnamed => exact ⟨nofun, fun _ => rfl, by simp, by simp⟩
    | blocked => exact ⟨nofun, fun _ => rfl, by simp, by simp⟩
    | stuck hname hlocate hfree hleft =>
      have hwaiting := hwaits ⟨_, hname, hlocate⟩
      have hfound := entry?_put_self hfree
      cases hleft with
      | write => exact ⟨nofun, by simp, by simp, fun _ => ⟨_, _, hwaiting, hfound _⟩⟩
      | flush => exact ⟨nofun, by simp, by simp, fun _ => ⟨_, _, hwaiting, hfound _⟩⟩
      | sync => exact ⟨nofun, by simp, fun _ => ⟨_, hwaiting, hfound _⟩, by simp⟩
      | move => exact ⟨nofun, by simp, fun _ => ⟨_, hwaiting, hfound _⟩, by simp⟩
    | done hwritable hfits =>
      exact ⟨fun _ => ⟨_, hwaits (hwritable.waitsAt hfits), hwritable.entry?_replaced_waiting _⟩,
        by simp, by simp, by simp⟩

/-- A directory that stands in the way, and a file that is written twice, by its name in the working
directory and by the one from the root. -/
theorem run_keeps_last_write_past_directory :
    let fs := ((empty ⟨["w"]⟩).put ⟨["w", "a"]⟩ (.file "old".toUTF8)).put ⟨["w", "d"]⟩ .directory
    let stuck : Write := ⟨"d", "stuck".toUTF8, none⟩
    let first : Write := ⟨"a", "new".toUTF8, none⟩
    let again : Write := ⟨"/w/a", "newer".toUTF8, none⟩
    Apart fs [stuck, first, again] ∧
      (∃ waiting, fs.WaitsAt "d" waiting ∧
        entry? (fs.writeAtomic "d" "stuck".toUTF8).1 waiting = some (.file "stuck".toUTF8)) ∧
      entry? (run fs [stuck, first]).files ⟨["w", "a"]⟩ = some (.file "new".toUTF8) ∧
      entry? (run fs [stuck, first, again]).files ⟨["w", "a"]⟩ = some (.file "newer".toUTF8) ∧
      entry? (run fs [stuck, first, again]).files ⟨["w", "d"]⟩ = some .directory ∧
      entry? (run fs [stuck, first, again]).files ⟨["w", "b"]⟩ = none := by
  intro fs stuck first again
  have hnames : [stuck, first, again].map (fileName? ·.path) = ["d", "a", "a"].map some := by
    simp only [stuck, first, again]
    decide
  have hapart : Apart fs [stuck, first, again] := apart_of_names hnames (by decide) fs
  have hplace : fs.locate "a" = .ok ⟨["w", "a"]⟩ := rfl
  have hplace' : fs.locate "d" = .ok ⟨["w", "d"]⟩ := rfl
  have hplaces : ∀ w ∈ [stuck, first, again],
      fs.locate w.path = .ok ⟨["w", "d"]⟩ ∨ fs.locate w.path = .ok ⟨["w", "a"]⟩ := by
    simp only [stuck, first, again, List.forall_mem_cons]
    exact ⟨.inl rfl, .inr rfl, .inr rfl, nofun⟩
  have hwaits : ∀ w ∈ [stuck, first, again],
      fs.WaitsAt w.path ⟨["w", "d.tmp"]⟩ ∨ fs.WaitsAt w.path ⟨["w", "a.tmp"]⟩ := by
    simp only [stuck, first, again, List.forall_mem_cons]
    exact ⟨.inl ⟨"d", rfl, rfl⟩, .inr ⟨"a", rfl, rfl⟩, .inr ⟨"a", rfl, rfl⟩, nofun⟩
  have hstuck : fs.writeAtomic "d" "stuck".toUTF8 =
      ((fs.writeAtomic "d" "stuck".toUTF8).1, .error (.move "d" .isADirectory)) :=
    Prod.ext rfl (by rfl)
  have hfirst : (run fs [stuck, first]).last? fs ⟨["w", "a"]⟩ = some "new".toUTF8 := by decide
  have hagain : (run fs [stuck, first, again]).last? fs ⟨["w", "a"]⟩ = some "newer".toUTF8 := by
    decide
  have hnever : (run fs [stuck, first, again]).last? fs ⟨["w", "d"]⟩ = none := by decide
  obtain ⟨-, -, -, hnext⟩ := run_keeps_last_write hapart (List.nil_append _).symm
  obtain ⟨-, hnew, -, -⟩ := run_keeps_last_write hapart (rfl : _ = [stuck, first] ++ [again])
  obtain ⟨-, hnewer, hframe, -⟩ := run_keeps_last_write hapart (List.append_nil _).symm
  have hmem : first ∈ [stuck, first, again] := by simp
  refine ⟨hapart, ?_, ?_, ?_, ?_, hframe ⟨["w", "b"]⟩ fun w hw => ⟨fun hb => ?_, fun hb => ?_⟩⟩
  · exact (hnext stuck _ rfl _ _ hstuck).2.2.1 (.inr ⟨_, _, rfl⟩)
  · rw [hnew first hmem _ hplace, hfirst]
    rfl
  · rw [hnewer first hmem _ hplace, hagain]
    rfl
  · rw [hnewer stuck List.mem_cons_self _ hplace', hnever]
    rfl
  · rcases hplaces w hw with hw | hw <;>
      exact absurd (Except.ok.inj (hw.symm.trans hb)) (by decide)
  · rcases hwaits w hw with hw | hw <;> exact absurd (hw.eq hb) (by decide)

end History

end ClaimTree.Files
