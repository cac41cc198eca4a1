import ClaimTree.Files.Atomic
import ClaimTree.Proofs.Files.Names

namespace ClaimTree.Files

variable {fs : Files} {path name : String} {dir : Place}

section Waiting

theorem waiting_ne_of_length {other : String} (h : other.length < 4) : name ++ ".tmp" ≠ other := by
  rintro rfl
  rw [String.length_append] at h
  exact absurd h (Nat.not_lt.mpr (Nat.le_add_left 4 name.length))

theorem waiting_ne (name : String) : name ++ ".tmp" ≠ name := by
  intro h
  have hlength := congrArg String.length h
  rw [String.length_append] at hlength
  exact absurd hlength (Nat.ne_of_gt (Nat.lt_add_of_pos_right (by decide)))

theorem isIdle_waiting (name : String) : isIdle (name ++ ".tmp") = false :=
  isIdle_eq_false_iff.mpr
    ⟨waiting_ne_of_length (by decide), waiting_ne_of_length (by decide)⟩

theorem slash_not_mem_waiting (h : '/' ∉ name.toList) : '/' ∉ (name ++ ".tmp").toList := by
  rw [String.toList_append]
  intro hmem
  rcases List.mem_append.mp hmem with hmem | hmem
  · exact h hmem
  · revert hmem
    decide

/-- The contents of a file wait beside it. -/
theorem EndsIn.waiting (h : fs.EndsIn path dir name) :
    fs.EndsIn (waitingPath path name) dir (name ++ ".tmp") := by
  obtain ⟨before, hparts, -⟩ := h.leads
  have hname : name ∈ parts path := hparts ▸ List.mem_append_right _ List.mem_cons_self
  exact h.sibling (slash_not_mem_waiting (slash_not_mem_of_mem_parts hname))
    (isIdle_waiting name) (waiting_ne_of_length (by decide))

theorem fileName?_waitingPath (h : fileName? path = some name) :
    fileName? (waitingPath path name) = some (name ++ ".tmp") := by
  obtain ⟨⟨before, htrim⟩, -⟩ := fileName?_eq_some_iff.mp h
  have hname : name ∈ parts path :=
    mem_parts_of_trimIdle (htrim ▸ List.mem_append_right _ List.mem_cons_self)
  obtain ⟨kept, -, hparts, -⟩ :=
    exists_parts_sibling htrim (slash_not_mem_waiting (slash_not_mem_of_mem_parts hname))
  refine fileName?_eq_some_iff.mpr ⟨⟨kept, ?_⟩, waiting_ne_of_length (by decide)⟩
  rw [waitingPath, hparts, trimIdle_concat (isIdle_waiting name)]

end Waiting

/-- The files after the one called `name` has been replaced. -/
def replaced (fs : Files) (dir : Place) (name : String) (contents : ByteArray) : Files :=
  ((fs.put (dir.child (name ++ ".tmp")) (.file contents)).remove
    (dir.child (name ++ ".tmp"))).put (dir.child name) (.file contents)

theorem entry?_replaced_of_ne {place : Place} {contents : ByteArray}
    (hname : place ≠ dir.child name) (hwaiting : place ≠ dir.child (name ++ ".tmp")) :
    entry? (fs.replaced dir name contents) place = fs.entry? place := by
  rw [replaced, entry?_put_of_ne hname, entry?_remove_of_ne hwaiting, entry?_put_of_ne hwaiting]

/-- The path ends in the name of a file and its parent directory exists; no directory is in the
way, neither there nor where the contents wait. -/
structure WritableAt (fs : Files) (path : String) (dir : Place) (name : String) : Prop
    extends fs.EndsIn path dir name where
  free : fs.entry? (dir.child name) ≠ some .directory
  waiting_free : fs.entry? (dir.child (name ++ ".tmp")) ≠ some .directory

/-- The path of a file and that of its waiting contents are within the limits. -/
structure Fits (path name : String) : Prop where
  path_fits : checkPath path = .ok ()
  waiting_fits : checkPath (waitingPath path name) = .ok ()
  name_le : (name ++ ".tmp").utf8ByteSize ≤ nameLimit

/-- A file can be written to this path. -/
def Writable (fs : Files) (path : String) : Prop :=
  ∃ dir name, fs.WritableAt path dir name ∧ Fits path name

namespace WritableAt

theorem names (h : fs.WritableAt path dir name) (hfits : Fits path name) :
    fs.Names path dir name := by
  refine ⟨h.toEndsIn, hfits.path_fits, ?_⟩
  have hsize := hfits.name_le
  rw [String.utf8ByteSize_append] at hsize
  omega

theorem names_waiting (h : fs.WritableAt path dir name) (hfits : Fits path name) :
    fs.Names (waitingPath path name) dir (name ++ ".tmp") :=
  ⟨h.toEndsIn.waiting, hfits.waiting_fits, hfits.name_le⟩

theorem entry?_replaced_self (h : fs.WritableAt path dir name) (contents : ByteArray) :
    entry? (fs.replaced dir name contents) (dir.child name) = some (.file contents) := by
  have hfixed : ¬fs.isFixed (dir.child name) = true := not_isFixed_of_free h.free
  rw [replaced, entry?_put_of_not_isFixed]
  exact hfixed

/-- Contents that wait are moved to their file. -/
theorem move_eq (h : fs.WritableAt path dir name) (hfits : Fits path name)
    (contents : ByteArray) :
    (fs.put (dir.child (name ++ ".tmp")) (.file contents)).move (waitingPath path name) path =
      .ok (fs.replaced dir name contents) := by
  have hkeeps := keepsDirectories_put h.waiting_free (.file contents)
  have hplaces : dir.child name ≠ dir.child (name ++ ".tmp") :=
    fun heq => waiting_ne name (child_injective heq).symm
  have hfree : entry? (fs.put (dir.child (name ++ ".tmp")) (.file contents)) (dir.child name) ≠
      some .directory := by
    rw [entry?_put_of_ne hplaces]
    exact h.free
  exact ((h.names_waiting hfits).of_keeps hkeeps).move_eq ((h.names hfits).of_keeps hkeeps)
    (entry?_put_self h.waiting_free (.file contents)) hfree

/-- With nothing in the way and without a fault the file is replaced. -/
theorem writeAtomic_eq (h : fs.WritableAt path dir name) (hfits : Fits path name)
    (contents : ByteArray) :
    fs.writeAtomic path contents = (fs.replaced dir name contents, .ok ()) := by
  have hcreate := (h.names_waiting hfits).create_eq h.waiting_free
  rw [writeAtomic, h.fileName?_eq]
  simp only [Option.bind_none, unlessRefused, hcreate, fill, put_put, h.move_eq hfits]

theorem keepsDirectories_replaced (h : fs.WritableAt path dir name) (contents : ByteArray) :
    KeepsDirectories fs (fs.replaced dir name contents) := by
  refine ⟨rfl, fun place hplace => ?_⟩
  have hname : place ≠ dir.child name := by
    rintro rfl
    exact h.free hplace
  have hwaiting : place ≠ dir.child (name ++ ".tmp") := by
    rintro rfl
    exact h.waiting_free hplace
  rwa [entry?_replaced_of_ne hname hwaiting]

/-- A name that leaves no room for what is put behind it cannot be written to. -/
theorem writeAtomic_tooLong (h : fs.WritableAt path dir name)
    (hfits : checkPath (waitingPath path name) = .ok ())
    (hlong : nameLimit < (name ++ ".tmp").utf8ByteSize) (contents : ByteArray) :
    fs.writeAtomic path contents = (fs, .error (.create (waitingPath path name) .tooLong)) := by
  have hinside : inside dir (name ++ ".tmp") = .error .tooLong := if_pos hlong
  have hcreate : fs.create (waitingPath path name) = .error .tooLong := by
    rw [create, h.toEndsIn.waiting.locate_eq hfits, hinside]
    rfl
  rw [writeAtomic, h.fileName?_eq]
  simp only [Option.bind_none, unlessRefused, hcreate]

end WritableAt

/-- What is written is what is read afterwards. -/
theorem Writable.writeAtomic_read (h : fs.Writable path) (contents : ByteArray) :
    ∃ fs', fs.writeAtomic path contents = (fs', .ok ()) ∧ fs'.read path = .ok contents := by
  obtain ⟨dir, name, hwritable, hfits⟩ := h
  refine ⟨_, hwritable.writeAtomic_eq hfits contents, ?_⟩
  exact ((hwritable.names hfits).of_keeps
    (hwritable.keepsDirectories_replaced contents)).read_eq
      (hwritable.entry?_replaced_self contents)

end ClaimTree.Files
