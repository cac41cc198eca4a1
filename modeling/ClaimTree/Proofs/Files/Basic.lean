import ClaimTree.Files.Basic
import ClaimTree.Proofs.Except

namespace ClaimTree.Files

variable {fs fs' : Files} {place : Place}

theorem child_injective {dir : Place} {name name' : String}
    (h : place.child name = dir.child name') : name = name' := by
  have hlast := congrArg (·.names.getLast?) h
  simpa [Place.child] using hlast

@[simp] theorem isFixed_put (other : Place) (entry : Entry) :
    isFixed (fs.put other entry) place = fs.isFixed place := rfl

@[simp] theorem isFixed_remove (other : Place) :
    isFixed (fs.remove other) place = fs.isFixed place := rfl

theorem not_isFixed_of_free (h : fs.entry? place ≠ some .directory) :
    ¬fs.isFixed place = true :=
  fun hfixed => h (if_pos hfixed)

theorem lookup_filter_ne {entries : List (Place × Entry)} {other : Place} (h : place ≠ other) :
    (entries.filter (·.1 != other)).lookup place = entries.lookup place := by
  induction entries with
  | nil => rfl
  | cons e entries ih =>
    obtain ⟨at', entry⟩ := e
    by_cases hother : at' = other
    · subst hother
      rw [List.filter_cons_of_neg (by simp), ih, List.lookup_cons, beq_eq_false_iff_ne.mpr h]
    · rw [List.filter_cons_of_pos (by simp [hother]), List.lookup_cons, List.lookup_cons, ih]

theorem entry?_put_of_not_isFixed (h : ¬fs.isFixed place = true) (entry : Entry) :
    entry? (fs.put place entry) place = some entry := by
  unfold entry?
  rw [isFixed_put, if_neg h, put, List.lookup_cons_self]

theorem entry?_put_self (h : fs.entry? place ≠ some .directory) (entry : Entry) :
    entry? (fs.put place entry) place = some entry :=
  entry?_put_of_not_isFixed (not_isFixed_of_free h) entry

theorem entry?_remove_of_ne {other : Place} (h : place ≠ other) :
    entry? (fs.remove other) place = fs.entry? place := by
  unfold entry?
  rw [isFixed_remove, remove, lookup_filter_ne h]

theorem entry?_remove_of_not_isFixed (h : ¬fs.isFixed place = true) :
    entry? (fs.remove place) place = none := by
  unfold entry?
  rw [isFixed_remove, if_neg h, remove, List.lookup_eq_none_iff]
  intro e he
  exact bne_iff_ne.mpr (bne_iff_ne.mp (List.mem_filter.mp he).2).symm

theorem entry?_put_of_ne {other : Place} (h : place ≠ other) (entry : Entry) :
    entry? (fs.put other entry) place = fs.entry? place := by
  unfold entry?
  rw [isFixed_put, put, List.lookup_cons, beq_eq_false_iff_ne.mpr h, remove]
  simp only [lookup_filter_ne h]

/-- Of two entries put at one place the second one counts. -/
theorem put_put (fs : Files) (place : Place) (entry entry' : Entry) :
    (fs.put place entry).put place entry' = fs.put place entry' := by
  simp [put, remove]

/-- Every directory of the one is a directory of the other. -/
def KeepsDirectories (fs fs' : Files) : Prop :=
  fs.workingDirectory = fs'.workingDirectory ∧
    ∀ place, fs.entry? place = some .directory → fs'.entry? place = some .directory

theorem KeepsDirectories.refl (fs : Files) : KeepsDirectories fs fs := ⟨rfl, fun _ => id⟩

theorem KeepsDirectories.trans {fs'' : Files} (h : KeepsDirectories fs fs')
    (h' : KeepsDirectories fs' fs'') : KeepsDirectories fs fs'' :=
  ⟨h.1.trans h'.1, fun place hplace => h'.2 place (h.2 place hplace)⟩

theorem keepsDirectories_put (h : fs.entry? place ≠ some .directory) (entry : Entry) :
    KeepsDirectories fs (fs.put place entry) := by
  refine ⟨rfl, fun other hother => ?_⟩
  have hne : other ≠ place := by
    rintro rfl
    exact h hother
  rwa [entry?_put_of_ne hne]

/-- A file is not in the way of any path. -/
theorem keepsDirectories_of_put_file (fs : Files) (place : Place) (contents : ByteArray) :
    KeepsDirectories (fs.put place (.file contents)) fs := by
  refine ⟨rfl, fun other hother => ?_⟩
  by_cases hsame : other = place
  · subst hsame
    by_cases hfixed : fs.isFixed other = true
    · exact if_pos hfixed
    · rw [entry?_put_of_not_isFixed hfixed] at hother
      cases hother
  · rwa [entry?_put_of_ne hsame] at hother

section Walk

theorem inside_eq_ok_iff {name : String} {place' : Place} :
    inside place name = .ok place' ↔
      name.utf8ByteSize ≤ nameLimit ∧ place.child name = place' := by
  rw [inside]
  by_cases h : nameLimit < name.utf8ByteSize
  · rw [if_pos h]
    exact iff_of_false nofun fun hle => Nat.not_lt.mpr hle.1 h
  · rw [if_neg h, Except.ok.injEq]
    exact (and_iff_right (Nat.le_of_not_lt h)).symm

theorem inside_eq_ok {name : String} (h : name.utf8ByteSize ≤ nameLimit) :
    inside place name = .ok (place.child name) :=
  inside_eq_ok_iff.mpr ⟨h, rfl⟩

theorem enter_idle {part : String} (hidle : isIdle part = true) :
    fs.enter place part = .ok place := by
  rw [enter, if_pos hidle]
  rfl

theorem enter_of_keeps (h : KeepsDirectories fs fs') {part : String} {place' : Place}
    (henter : fs.enter place part = .ok place') : fs'.enter place part = .ok place' := by
  rw [enter] at henter ⊢
  by_cases hidle : isIdle part = true
  · rwa [if_pos hidle] at henter ⊢
  by_cases hup : part = ".."
  · rwa [if_neg hidle, if_pos hup] at henter ⊢
  rw [if_neg hidle, if_neg hup] at henter ⊢
  obtain ⟨next, hinside, hentry⟩ := bind_eq_ok_iff.mp henter
  refine bind_eq_ok_iff.mpr ⟨next, hinside, ?_⟩
  split at hentry
  · next hfound =>
    rw [h.2 next hfound]
    exact hentry
  · cases hentry
  · cases hentry

theorem eq_child_of_enter {part : String} {place' : Place} (h : fs.enter place part = .ok place')
    (hidle : isIdle part = false) (hup : part ≠ "..") : place' = place.child part := by
  rw [enter, if_neg (by rw [hidle]; exact Bool.false_ne_true), if_neg hup] at h
  obtain ⟨next, hinside, hentry⟩ := bind_eq_ok_iff.mp h
  split at hentry
  · obtain rfl := Except.ok.inj hentry
    exact (inside_eq_ok_iff.mp hinside).2.symm
  · cases hentry
  · cases hentry

theorem foldlM_enter_of_keeps (h : KeepsDirectories fs fs') {ps : List String} {place' : Place}
    (hwalk : ps.foldlM fs.enter place = .ok place') : ps.foldlM fs'.enter place = .ok place' := by
  induction ps generalizing place with
  | nil => exact hwalk
  | cons p ps ih =>
    rw [List.foldlM_cons] at hwalk ⊢
    obtain ⟨next, henter, hrest⟩ := bind_eq_ok_iff.mp hwalk
    exact bind_eq_ok_iff.mpr ⟨next, enter_of_keeps h henter, ih hrest⟩

theorem walk_of_keeps (h : KeepsDirectories fs fs') {path : String} {ps : List String}
    (hwalk : fs.walk path ps = .ok place) : fs'.walk path ps = .ok place := by
  rw [walk, ← h.1]
  exact foldlM_enter_of_keeps h hwalk

theorem locate_of_keeps (h : KeepsDirectories fs fs') {path : String}
    (hlocate : fs.locate path = .ok place) : fs'.locate path = .ok place := by
  obtain ⟨_, hfits, hwalked⟩ := bind_eq_ok_iff.mp hlocate
  obtain ⟨dir, hwalk, hlast⟩ := bind_eq_ok_iff.mp hwalked
  refine bind_eq_ok_iff.mpr ⟨(), hfits, bind_eq_ok_iff.mpr ⟨dir, walk_of_keeps h hwalk, ?_⟩⟩
  dsimp only at hlast ⊢
  split at hlast
  · next hentered =>
    rw [if_pos hentered]
    exact enter_of_keeps h hlast
  · next hnamed =>
    rw [if_neg hnamed]
    exact hlast

theorem foldlM_enter_idle {ps : List String} (hidle : ∀ p ∈ ps, isIdle p = true) :
    ps.foldlM fs.enter place = .ok place := by
  induction ps with
  | nil => rfl
  | cons p ps ih =>
    obtain ⟨hp, hps⟩ := List.forall_mem_cons.mp hidle
    rw [List.foldlM_cons, enter_idle hp]
    exact ih hps

end Walk

end ClaimTree.Files
