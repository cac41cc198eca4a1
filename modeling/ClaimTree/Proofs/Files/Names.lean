import ClaimTree.Proofs.Files.Basic
import ClaimTree.Proofs.Files.Location

namespace ClaimTree.Files

variable {fs fs' : Files} {path name : String} {dir : Place}

section WorkingDirectory

/-- A part of a path that is taken for a name, and is not longer than a name can be. -/
structure IsName (part : String) : Prop where
  not_idle : isIdle part = false
  not_up : part ≠ ".."
  le : part.utf8ByteSize ≤ nameLimit

theorem enter_eq_child (hname : IsName name) (h : fs.entry? (dir.child name) = some .directory) :
    fs.enter dir name = .ok (dir.child name) := by
  rw [enter, if_neg (by rw [hname.not_idle]; exact Bool.false_ne_true), if_neg hname.not_up]
  refine bind_eq_ok_iff.mpr ⟨_, inside_eq_ok hname.le, ?_⟩
  rw [h]
  rfl

/-- The names that lead to the working directory can be entered one after the other. -/
theorem foldlM_enter_workingDirectory (hnames : ∀ name ∈ fs.workingDirectory.names, IsName name) :
    fs.workingDirectory.names.foldlM fs.enter .root = .ok fs.workingDirectory := by
  suffices h : ∀ before after, fs.workingDirectory.names = before ++ after →
      after.foldlM fs.enter ⟨before⟩ = .ok fs.workingDirectory from h [] _ rfl
  intro before after hsplit
  induction after generalizing before with
  | nil =>
    rw [List.append_nil] at hsplit
    rw [← hsplit]
    rfl
  | cons name after ih =>
    have hname : IsName name :=
      hnames name (hsplit ▸ List.mem_append_right before List.mem_cons_self)
    have hconcat : fs.workingDirectory.names = (before ++ [name]) ++ after := by simp [hsplit]
    have hfixed : fs.isFixed (Place.child ⟨before⟩ name) = true :=
      List.isPrefixOf_iff_prefix.mpr ⟨after, hconcat.symm⟩
    rw [List.foldlM_cons, enter_eq_child hname (if_pos hfixed)]
    exact ih (before ++ [name]) hconcat

/-- A relative path leads where the same path leads from the root, with the names of the working
directory in front. -/
theorem locate_absolute {absolute : String}
    (hnames : ∀ name ∈ fs.workingDirectory.names, IsName name) (hrelative : isAbsolute path = false)
    (hparts : parts absolute = "" :: (fs.workingDirectory.names ++ parts path))
    (hfits : checkPath absolute = checkPath path) : fs.locate absolute = fs.locate path := by
  obtain ⟨before, last, hpath⟩ : ∃ before last, parts path = before ++ [last] :=
    ⟨_, _, (List.dropLast_concat_getLast (parts_ne_nil path)).symm⟩
  have hconcat : parts absolute = "" :: (fs.workingDirectory.names ++ before) ++ [last] := by
    rw [hparts, hpath, List.cons_append, List.append_assoc]
  have habsolute : isAbsolute absolute = true := by
    rw [isAbsolute_iff, hconcat, List.length_append, List.length_cons]
    exact ⟨rfl, Nat.succ_lt_succ (Nat.succ_pos _)⟩
  have hwalk : fs.walk absolute ("" :: (fs.workingDirectory.names ++ before)) =
      fs.walk path before := by
    rw [walk, walk, habsolute, hrelative, List.foldlM_cons, enter_idle rfl]
    change (fs.workingDirectory.names ++ before).foldlM fs.enter .root = _
    rw [List.foldlM_append, foldlM_enter_workingDirectory hnames]
    rfl
  simp only [locate, hconcat, hpath, List.dropLast_concat, List.getLastD_concat, hwalk, hfits]

end WorkingDirectory

/-- The path ends in `name`, and what stands before it leads to the directory `dir`. -/
structure EndsIn (fs : Files) (path : String) (dir : Place) (name : String) : Prop where
  leads : ∃ before, parts path = before ++ [name] ∧ fs.walk path before = .ok dir
  not_idle : isIdle name = false
  not_up : name ≠ ".."

/-- Such a path that is within the limits. -/
structure Names (fs : Files) (path : String) (dir : Place) (name : String) : Prop
    extends fs.EndsIn path dir name where
  fits : checkPath path = .ok ()
  name_le : name.utf8ByteSize ≤ nameLimit

namespace EndsIn

theorem of_keeps (h : fs.EndsIn path dir name) (hkeeps : KeepsDirectories fs fs') :
    fs'.EndsIn path dir name := by
  obtain ⟨before, hparts, hwalk⟩ := h.leads
  exact { h with leads := ⟨before, hparts, walk_of_keeps hkeeps hwalk⟩ }

theorem fileName?_eq (h : fs.EndsIn path dir name) : fileName? path = some name := by
  obtain ⟨before, hparts, -⟩ := h.leads
  rw [fileName?, hparts, trimIdle_concat h.not_idle, List.getLast?_concat]
  exact Option.filter_some_pos (bne_iff_ne.mpr h.not_up)

theorem locate_eq (h : fs.EndsIn path dir name) (hfits : checkPath path = .ok ()) :
    fs.locate path = inside dir name := by
  obtain ⟨before, hparts, hwalk⟩ := h.leads
  have hlast : ¬(isIdle name || decide (name = "..")) = true := by simp [h.not_idle, h.not_up]
  simp only [locate, hparts, List.dropLast_concat, List.getLastD_concat, if_neg hlast, hfits, hwalk]
  rfl

/-- What lies beside it is reached by the path of a sibling. -/
theorem sibling (h : fs.EndsIn path dir name) {other : String} (hslash : '/' ∉ other.toList)
    (hidle : isIdle other = false) (hup : other ≠ "..") :
    fs.EndsIn (sibling path other) dir other := by
  obtain ⟨before, hparts, hwalk⟩ := h.leads
  have htrim : trimIdle (parts path) = before ++ [name] := by
    rw [hparts, trimIdle_concat h.not_idle]
  obtain ⟨kept, idle, hother, hbefore, hidles, hnil⟩ := exists_parts_sibling htrim hslash
  refine ⟨⟨kept, hother, ?_⟩, hidle, hup⟩
  have habsolute : isAbsolute (Files.sibling path other) = isAbsolute path := by
    rw [Bool.eq_iff_iff, isAbsolute_iff, isAbsolute_iff, hparts, hother]
    cases kept with
    | nil => simp [hnil rfl]
    | cons first others =>
      simp only [hbefore, List.cons_append, List.head?_cons, List.length_cons, List.length_append]
      exact and_congr_right fun _ => iff_of_true (by omega) (by omega)
  rw [walk, hbefore, List.foldlM_append] at hwalk
  obtain ⟨place, hkept, hidle⟩ := bind_eq_ok_iff.mp hwalk
  rw [foldlM_enter_idle hidles] at hidle
  obtain rfl := Except.ok.inj hidle
  rw [walk, habsolute]
  exact hkept

end EndsIn

/-- A path with this name at its end leads to a place of this name, if to any. -/
theorem exists_dir_of_locate {place : Place} (hname : fileName? path = some name)
    (hlocate : fs.locate path = .ok place) : ∃ dir : Place, place = dir.child name := by
  obtain ⟨⟨before, htrim⟩, hup⟩ := fileName?_eq_some_iff.mp hname
  have hidle := isIdle_of_trimIdle htrim
  obtain ⟨idle, hparts, hidles⟩ := exists_trimIdle_append (parts path)
  rw [htrim] at hparts
  obtain ⟨_, -, hwalked⟩ := bind_eq_ok_iff.mp hlocate
  obtain ⟨dir, hwalk, hlast⟩ := bind_eq_ok_iff.mp hwalked
  rcases List.eq_nil_or_concat idle with rfl | ⟨others, last, hconcat⟩
  · rw [List.append_nil] at hparts
    rw [hparts, List.getLastD_concat, if_neg (by simp [hidle, hup])] at hlast
    exact ⟨dir, (inside_eq_ok_iff.mp hlast).2.symm⟩
  · -- The name has been entered, and the idle parts behind it stay there.
    obtain rfl := hconcat.trans List.concat_eq_append
    have hlastIdle : isIdle last = true := hidles last (List.mem_append_right _ List.mem_cons_self)
    have hothers : ∀ p ∈ others, isIdle p = true :=
      fun p hp => hidles p (List.mem_append_left _ hp)
    rw [hparts, ← List.append_assoc, List.getLastD_concat, if_pos (by simp [hlastIdle]),
      enter_idle hlastIdle] at hlast
    obtain rfl := Except.ok.inj hlast
    rw [hparts, ← List.append_assoc, List.dropLast_concat, walk, List.foldlM_append] at hwalk
    obtain ⟨entered, hentered, hstays⟩ := bind_eq_ok_iff.mp hwalk
    rw [foldlM_enter_idle hothers] at hstays
    obtain rfl := Except.ok.inj hstays
    rw [List.foldlM_append] at hentered
    obtain ⟨dir, -, hname⟩ := bind_eq_ok_iff.mp hentered
    obtain ⟨_, henter, hpure⟩ := bind_eq_ok_iff.mp hname
    obtain rfl := Except.ok.inj hpure
    exact ⟨dir, eq_child_of_enter henter hidle hup⟩

namespace Names

theorem of_keeps (h : fs.Names path dir name) (hkeeps : KeepsDirectories fs fs') :
    fs'.Names path dir name :=
  { h with toEndsIn := h.toEndsIn.of_keeps hkeeps }

theorem locate_eq (h : fs.Names path dir name) : fs.locate path = .ok (dir.child name) := by
  rw [h.toEndsIn.locate_eq h.fits, inside_eq_ok h.name_le]

theorem target_eq (h : fs.Names path dir name)
    (hfree : fs.entry? (dir.child name) ≠ some .directory) :
    fs.target path = .ok (dir.child name) := by
  obtain ⟨before, hparts, hwalk⟩ := h.leads
  have hidle := isIdle_eq_false_iff.mp h.not_idle
  have hbody : ((before ++ [name]).reverse.dropWhile (· == "")).reverse = before ++ [name] := by
    rw [List.reverse_append, List.reverse_singleton, List.singleton_append,
      List.dropWhile_cons, if_neg (by simp [hidle.1])]
    simp
  have hmark : ¬(name = "." ∨ name = "..") := by simp [hidle.2, h.not_up]
  have hopen : ¬(fs.entry? (dir.child name)).any (·.isDirectory) = true := by
    cases hfound : fs.entry? (dir.child name) with
    | none => exact Bool.false_ne_true
    | some entry =>
      cases entry with
      | file contents => exact Bool.false_ne_true
      | directory => exact absurd hfound hfree
  simp only [target, hparts, hbody, List.dropLast_concat, List.getLastD_concat, if_neg hmark]
  refine bind_eq_ok_iff.mpr ⟨(), h.fits, ?_⟩
  refine bind_eq_ok_iff.mpr ⟨dir, hwalk, ?_⟩
  refine bind_eq_ok_iff.mpr ⟨_, inside_eq_ok h.name_le, ?_⟩
  rw [if_neg (Nat.lt_irrefl _), if_neg hopen]
  rfl

theorem create_eq (h : fs.Names path dir name)
    (hfree : fs.entry? (dir.child name) ≠ some .directory) :
    fs.create path = .ok (fs.put (dir.child name) (.file .empty), dir.child name) := by
  refine bind_eq_ok_iff.mpr ⟨_, h.locate_eq, ?_⟩
  split
  · next hfound => exact absurd hfound hfree
  · rfl

theorem read_eq (h : fs.Names path dir name) {contents : ByteArray}
    (hfile : fs.entry? (dir.child name) = some (.file contents)) : fs.read path = .ok contents := by
  refine bind_eq_ok_iff.mpr ⟨_, h.locate_eq, ?_⟩
  rw [hfile]
  rfl

theorem move_eq {path' name' : String} {entry : Entry} (h : fs.Names path dir name)
    (h' : fs.Names path' dir name') (hentry : fs.entry? (dir.child name) = some entry)
    (hfree : fs.entry? (dir.child name') ≠ some .directory) :
    fs.move path path' =
      .ok ((fs.remove (dir.child name)).put (dir.child name') entry) := by
  refine bind_eq_ok_iff.mpr ⟨_, h'.target_eq hfree, ?_⟩
  refine bind_eq_ok_iff.mpr ⟨_, h.locate_eq, ?_⟩
  rw [hentry]
  rfl

end Names

end ClaimTree.Files
