import ClaimTree.Proofs.Files.Atomic

namespace ClaimTree.Files

variable {fs fs' : Files} {path name : String} {dir place : Place} {contents : ByteArray}

section Operations

theorem create_eq_ok_iff :
    fs.create path = .ok (fs', place) ↔ fs.locate path = .ok place ∧
      fs.entry? place ≠ some .directory ∧ fs.put place (.file .empty) = fs' := by
  rw [create, bind_eq_ok_iff]
  constructor
  · rintro ⟨found, hlocate, h⟩
    split at h
    · cases h
    · next hfree =>
      obtain ⟨rfl, rfl⟩ := Prod.mk.inj (Except.ok.inj h)
      exact ⟨hlocate, hfree, rfl⟩
  · rintro ⟨hlocate, hfree, rfl⟩
    refine ⟨place, hlocate, ?_⟩
    split
    · next hfound => exact absurd hfound hfree
    · rfl

theorem unlessRefused_eq_ok_iff {α : Type} {refusal : Option FileError}
    {operation : Except FileError α} {a : α} :
    unlessRefused refusal operation = .ok a ↔ refusal = none ∧ operation = .ok a := by
  cases refusal with
  | none => exact (and_iff_right rfl).symm
  | some cause => exact iff_of_false nofun nofun

/-- Parts of which no empty one had to be taken from the end finish with a name. -/
theorem exists_concat_of_not_shorter {ps : List String}
    (h : ¬(ps.reverse.dropWhile (· == "")).reverse.length < ps.length) (hne : ps ≠ []) :
    (ps.reverse.dropWhile (· == "")).reverse = ps ∧
      ∃ before name, ps = before ++ [name] ∧ name ≠ "" := by
  rcases List.eq_nil_or_concat ps with rfl | ⟨before, name, rfl⟩
  · exact absurd rfl hne
  rw [List.concat_eq_append, List.reverse_append, List.reverse_singleton, List.singleton_append,
    List.dropWhile_cons] at h ⊢
  by_cases hname : (name == "") = true
  · have hle := (List.dropWhile_sublist (· == "") (l := before.reverse)).length_le
    rw [if_pos hname, List.length_reverse, List.length_append, List.length_singleton] at h
    rw [List.length_reverse] at hle
    exact absurd (Nat.lt_succ_of_le hle) h
  · rw [if_neg hname]
    exact ⟨by simp, before, name, rfl, by simpa using hname⟩

/-- A file can be moved to where its name is the last part of the path and no directory stands. -/
theorem exists_names_of_target (h : fs.target path = .ok place) :
    ∃ dir name, fs.Names path dir name ∧ place = dir.child name ∧
      fs.entry? place ≠ some .directory := by
  obtain ⟨_, hfits, h⟩ := bind_eq_ok_iff.mp h
  obtain ⟨dir, hwalk, h⟩ := bind_eq_ok_iff.mp h
  dsimp only at h
  split at h
  · cases h
  next hmark =>
  obtain ⟨next, hinside, h⟩ := bind_eq_ok_iff.mp h
  obtain ⟨hsize, rfl⟩ := inside_eq_ok_iff.mp hinside
  by_cases hshort :
      ((parts path).reverse.dropWhile (· == "")).reverse.length < (parts path).length
  · rw [if_pos hshort] at h
    cases h
  rw [if_neg hshort] at h
  split at h
  · cases h
  next hfree =>
  obtain rfl := Except.ok.inj h
  have hne : parts path ≠ [] := fun hnil => hmark (.inl (by rw [hnil]; rfl))
  obtain ⟨hbody, before, name, hparts, hname⟩ := exists_concat_of_not_shorter hshort hne
  rw [hbody, hparts, List.dropLast_concat] at hwalk
  rw [hbody, hparts, List.getLastD_concat] at hmark hsize hfree ⊢
  obtain ⟨hdot, hup⟩ := not_or.mp hmark
  refine ⟨dir, name, ⟨⟨⟨before, hparts, hwalk⟩, isIdle_eq_false_iff.mpr ⟨hname, hdot⟩, hup⟩,
    hfits, hsize⟩, rfl, fun hfound => hfree ?_⟩
  rw [hfound]
  rfl

end Operations

/-- What a write leaves waiting that fails once the waiting file has been made: all of its contents,
or only their beginning. -/
inductive Left (path name : String) (contents : ByteArray) : WriteError → ByteArray → Prop
  | write {arrived : Nat} {cause : FileError} :
    Left path name contents (.write (waitingPath path name) cause) (contents.extract 0 arrived)
  | flush {arrived : Nat} {cause : FileError} :
    Left path name contents (.flush cause) (contents.extract 0 arrived)
  | sync {cause : FileError} : Left path name contents (.sync cause) contents
  | move {cause : FileError} : Left path name contents (.move path cause) contents

/-- The outcomes of an attempt to replace a file, each with the files after it. -/
inductive Attempt (fs : Files) (path : String) (contents : ByteArray) :
    Files × Except WriteError Unit → Prop
  /-- The path has no name at its end. -/
  | unnamed : fileName? path = none → Attempt fs path contents (fs, .error .noFileName)
  /-- There is no room for the contents to wait. -/
  | blocked {name : String} {cause : FileError} : fileName? path = some name →
    Attempt fs path contents (fs, .error (.create (waitingPath path name) cause))
  /-- The contents wait, as far as they got. -/
  | stuck {name : String} {place : Place} {left : ByteArray} {e : WriteError} :
    fileName? path = some name → fs.locate (waitingPath path name) = .ok place →
    fs.entry? place ≠ some .directory → Left path name contents e left →
    Attempt fs path contents (fs.put place (.file left), .error e)
  | done {dir : Place} {name : String} : fs.WritableAt path dir name → Fits path name →
    Attempt fs path contents (fs.replaced dir name contents, .ok ())

theorem fill_cases (fs : Files) (place : Place) (path name : String) (contents : ByteArray)
    (fault : Option WriteFault) :
    fs.fill place (waitingPath path name) contents fault =
      (fs.put place (.file contents), .ok ()) ∨
    ∃ e left, Left path name contents e left ∧
      fs.fill place (waitingPath path name) contents fault =
        (fs.put place (.file left), .error e) := by
  match fault with
  | none => exact .inl rfl
  | some (.create cause) => exact .inl rfl
  | some (.write arrived cause) => exact .inr ⟨_, _, .write, rfl⟩
  | some (.flush arrived cause) => exact .inr ⟨_, _, .flush, rfl⟩
  | some (.sync cause) => exact .inr ⟨_, _, .sync, rfl⟩
  | some (.move cause) => exact .inl rfl

/-- When the waiting contents can be moved, the path was one that can be written to. -/
theorem writableAt_of_move {waiting : Place} {name : String} (hname : fileName? path = some name)
    (hlocate : fs.locate (waitingPath path name) = .ok waiting)
    (hfree : fs.entry? waiting ≠ some .directory)
    (hmove : (fs.put waiting (.file contents)).move (waitingPath path name) path = .ok fs') :
    ∃ dir, fs.WritableAt path dir name ∧ Fits path name ∧
      fs' = fs.replaced dir name contents := by
  obtain ⟨place, htarget, -⟩ := bind_eq_ok_iff.mp hmove
  obtain ⟨dir, last, hnames, rfl, hopen⟩ := exists_names_of_target htarget
  obtain rfl : last = name := Option.some.inj (hnames.fileName?_eq.symm.trans hname)
  have hends : fs.EndsIn path dir last :=
    hnames.toEndsIn.of_keeps (keepsDirectories_of_put_file fs waiting contents)
  obtain ⟨_, hwaitingFits, -⟩ := bind_eq_ok_iff.mp hlocate
  rw [hends.waiting.locate_eq hwaitingFits] at hlocate
  obtain ⟨hsize, rfl⟩ := inside_eq_ok_iff.mp hlocate
  rw [entry?_put_of_ne fun heq => waiting_ne last (child_injective heq).symm] at hopen
  have hwritable : fs.WritableAt path dir last := ⟨hends, hopen, hfree⟩
  have hfits : Fits path last := ⟨hnames.fits, hwaitingFits, hsize⟩
  rw [hwritable.move_eq hfits] at hmove
  exact ⟨dir, hwritable, hfits, (Except.ok.inj hmove).symm⟩

/-- Whatever goes wrong, the files are left in one of these ways. -/
theorem attempt_writeAtomic (fs : Files) (path : String) (contents : ByteArray)
    (fault : Option WriteFault) :
    Attempt fs path contents (fs.writeAtomic path contents fault) := by
  cases hname : fileName? path with
  | none =>
    rw [writeAtomic, hname]
    exact .unnamed hname
  | some name =>
    cases hcreate :
      unlessRefused (fault.bind (·.onCreate?)) (fs.create (waitingPath path name)) with
    | error cause =>
      rw [writeAtomic, hname]
      simp only [hcreate]
      exact .blocked hname
    | ok created =>
      obtain ⟨made, place⟩ := created
      obtain ⟨hlocate, hfree, rfl⟩ := create_eq_ok_iff.mp (unlessRefused_eq_ok_iff.mp hcreate).2
      rcases fill_cases (fs.put place (.file .empty)) place path name contents fault with
        hfill | ⟨e, left, hleft, hfill⟩
      · rw [put_put] at hfill
        cases hmove : unlessRefused (fault.bind (·.onMove?))
          ((fs.put place (.file contents)).move (waitingPath path name) path) with
        | error cause =>
          rw [writeAtomic, hname]
          simp only [hcreate, hfill, hmove]
          exact .stuck hname hlocate hfree .move
        | ok moved =>
          have hmoved := (unlessRefused_eq_ok_iff.mp hmove).2
          obtain ⟨dir, hwritable, hfits, rfl⟩ := writableAt_of_move hname hlocate hfree hmoved
          rw [writeAtomic, hname]
          simp only [hcreate, hfill, hmove]
          exact .done hwritable hfits
      · rw [put_put] at hfill
        rw [writeAtomic, hname]
        simp only [hcreate, hfill]
        exact .stuck hname hlocate hfree hleft

/-- The contents on their way to this path wait at `place`. -/
def WaitsAt (fs : Files) (path : String) (place : Place) : Prop :=
  ∃ name, fileName? path = some name ∧ fs.locate (waitingPath path name) = .ok place

section Frame

variable {waiting : Place}

theorem WaitsAt.ne_of_locate (h : fs.WaitsAt path waiting) (hplace : fs.locate path = .ok place) :
    place ≠ waiting := by
  obtain ⟨name, hname, hwaiting⟩ := h
  obtain ⟨dir, rfl⟩ := exists_dir_of_locate hname hplace
  obtain ⟨dir', rfl⟩ := exists_dir_of_locate (fileName?_waitingPath hname) hwaiting
  exact fun heq => waiting_ne name (child_injective heq).symm

/-- A failed attempt touches no place but the one where the contents wait. -/
theorem Attempt.entry?_of_error {e : WriteError} (h : Attempt fs path contents (fs', .error e))
    (hplace : ¬fs.WaitsAt path place) : fs'.entry? place = fs.entry? place := by
  cases h with
  | unnamed => rfl
  | blocked => rfl
  | stuck hname hlocate =>
    refine entry?_put_of_ne ?_ _
    rintro rfl
    exact hplace ⟨_, hname, hlocate⟩

theorem Attempt.eq_replaced_of_ok (h : Attempt fs path contents (fs', .ok ())) :
    ∃ dir name, fs.WritableAt path dir name ∧ Fits path name ∧
      fs' = fs.replaced dir name contents := by
  cases h with
  | done hwritable hfits => exact ⟨_, _, hwritable, hfits, rfl⟩

theorem WritableAt.entry?_replaced_waiting (h : fs.WritableAt path dir name)
    (contents : ByteArray) :
    entry? (fs.replaced dir name contents) (dir.child (name ++ ".tmp")) = none := by
  have hfixed : ¬fs.isFixed (dir.child (name ++ ".tmp")) = true :=
    not_isFixed_of_free h.waiting_free
  rw [replaced, entry?_put_of_ne fun heq => waiting_ne name (child_injective heq),
    entry?_remove_of_not_isFixed]
  exact hfixed

theorem WritableAt.waitsAt (h : fs.WritableAt path dir name) (hfits : Fits path name) :
    fs.WaitsAt path (dir.child (name ++ ".tmp")) :=
  ⟨name, h.fileName?_eq, (h.names_waiting hfits).locate_eq⟩

theorem WaitsAt.eq (h : fs.WaitsAt path waiting) (h' : fs.WaitsAt path place) :
    waiting = place := by
  obtain ⟨name, hname, hlocate⟩ := h
  obtain ⟨name', hname', hlocate'⟩ := h'
  obtain rfl := Option.some.inj (hname.symm.trans hname')
  exact Except.ok.inj (hlocate.symm.trans hlocate')

theorem WaitsAt.of_keeps (h : fs.WaitsAt path waiting) (hkeeps : KeepsDirectories fs fs') :
    fs'.WaitsAt path waiting := by
  obtain ⟨name, hname, hlocate⟩ := h
  exact ⟨name, hname, locate_of_keeps hkeeps hlocate⟩

end Frame

end ClaimTree.Files
