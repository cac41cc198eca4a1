import Mathlib.Data.List.Defs

namespace ClaimTree

section Except

variable {α β ε ε' : Type}

theorem bind_eq_ok_iff {x : Except ε α} {f : α → Except ε β} {b : β} :
    x >>= f = .ok b ↔ ∃ a, x = .ok a ∧ f a = .ok b := by
  cases x <;> simp [bind, Except.bind]

theorem bind_eq_error_iff {x : Except ε α} {f : α → Except ε β} {e : ε} :
    x >>= f = .error e ↔ x = .error e ∨ ∃ a, x = .ok a ∧ f a = .error e := by
  cases x <;> simp [bind, Except.bind]

theorem mapError_eq_ok_iff {x : Except ε α} {f : ε → ε'} {a : α} :
    x.mapError f = .ok a ↔ x = .ok a := by
  cases x with
  | error e => constructor <;> intro h <;> cases h
  | ok b =>
    constructor
    · intro h
      exact congrArg Except.ok (Except.ok.inj h)
    · intro h
      exact congrArg Except.ok (Except.ok.inj h)

theorem mapError_eq_error_iff {x : Except ε α} {f : ε → ε'} {e' : ε'} :
    x.mapError f = .error e' ↔ ∃ e, x = .error e ∧ f e = e' := by
  cases x with
  | error e =>
    constructor
    · intro h
      exact ⟨e, rfl, Except.error.inj h⟩
    · rintro ⟨_, he, rfl⟩
      rw [Except.error.inj he]
      rfl
  | ok a =>
    constructor
    · intro h
      cases h
    · rintro ⟨e, he, -⟩
      cases he

/-- Steps of which none fails give the list of their results, in order. -/
theorem exists_mapM_eq_ok {f : α → Except ε β} {xs : List α} (h : ∀ x ∈ xs, ∃ y, f x = .ok y) :
    ∃ ys, xs.mapM f = .ok ys ∧ xs.map f = ys.map .ok := by
  induction xs with
  | nil => exact ⟨[], rfl, rfl⟩
  | cons x xs ih =>
    obtain ⟨y, hy⟩ := h x List.mem_cons_self
    obtain ⟨ys, hys, hmap⟩ := ih fun z hz => h z (List.mem_cons_of_mem x hz)
    refine ⟨y :: ys, ?_, ?_⟩
    · rw [List.mapM_cons, hy, hys]
      rfl
    · rw [List.map_cons, List.map_cons, hy, hmap]

/-- Nothing is lost by writing what can be read back. -/
theorem injective_of_read_back {read : β → Except ε α} {write : α → β}
    (h : ∀ a, read (write a) = .ok a) : Function.Injective write := by
  intro a b hab
  have hread := h a
  rw [hab, h b] at hread
  exact (Except.ok.inj hread).symm

theorem mapM_eq_some {f : α → Option β} {xs : List α} {ys : List β}
    (h : xs.map f = ys.map some) : xs.mapM f = some ys := by
  induction xs generalizing ys with
  | nil => rw [List.map_eq_nil_iff.mp h.symm]; rfl
  | cons x xs ih =>
    obtain ⟨y, ys, rfl, hy, hys⟩ := List.map_eq_cons_iff.mp h.symm
    rw [List.mapM_cons, ← hy, ih hys.symm]
    rfl

theorem option_mapM_eq_ok_iff {f : α → Except ε β} {x : Option α} {y : Option β} :
    x.mapM f = .ok y ↔ x.map f = y.map .ok := by
  cases x with
  | none => cases y <;> simp [pure, Except.pure]
  | some a =>
    rw [Option.mapM_some, Option.map_some]
    cases f a <;> cases y <;> simp [Functor.map, Except.map]

theorem option_mapM_eq_error_iff {f : α → Except ε β} {x : Option α} {e : ε} :
    x.mapM f = .error e ↔ ∃ a, x = some a ∧ f a = .error e := by
  cases x with
  | none => simp [pure, Except.pure]
  | some a =>
    rw [Option.mapM_some]
    cases h : f a <;> simp [Functor.map, Except.map, h]

/-- Reads the members of a list in order, the first one at place `start`. What is wrong with the
first bad one is reported with its place. -/
def readFrom (read : α → Except ε β) (fault : Nat → ε → ε') :
    (start : Nat) → List α → Except ε' (List β)
  | _, [] => .ok []
  | start, x :: xs => do
    let y ← (read x).mapError (fault start)
    let ys ← readFrom read fault (start + 1) xs
    return y :: ys

section ReadFrom

variable {read : α → Except ε β} {fault : Nat → ε → ε'} {start : Nat} {xs : List α}

theorem readFrom_eq_ok_iff {ys : List β} :
    readFrom read fault start xs = .ok ys ↔ xs.map read = ys.map .ok := by
  induction xs generalizing start ys with
  | nil => cases ys <;> simp [readFrom]
  | cons x xs ih =>
    simp only [readFrom, bind_eq_ok_iff, mapError_eq_ok_iff, ih]
    constructor
    · rintro ⟨y, hy, rest, hrest, hys⟩
      rw [← Except.ok.inj hys, List.map_cons, List.map_cons, hy, hrest]
    · intro h
      obtain ⟨y, rest, rfl, hy, hrest⟩ := List.map_eq_cons_iff.mp h.symm
      exact ⟨y, hy.symm, rest, hrest.symm, rfl⟩

theorem readFrom_eq_error_iff {e : ε'} :
    readFrom read fault start xs = .error e ↔
      ∃ before x after cause, xs = before ++ x :: after ∧
        (∀ earlier ∈ before, ∃ y, read earlier = .ok y) ∧ read x = .error cause ∧
        e = fault (start + before.length) cause := by
  induction xs generalizing start with
  | nil => simp [readFrom]
  | cons first xs ih =>
    simp only [readFrom, bind_eq_error_iff, mapError_eq_error_iff, mapError_eq_ok_iff, ih]
    constructor
    · rintro (⟨cause, hcause, rfl⟩ | ⟨y, hy,
        ⟨before, x, after, cause, rfl, hbefore, hcause, rfl⟩ | ⟨_, -, hpure⟩⟩)
      · exact ⟨[], first, xs, cause, rfl, nofun, hcause, rfl⟩
      · refine ⟨first :: before, x, after, cause, rfl,
          List.forall_mem_cons.mpr ⟨⟨y, hy⟩, hbefore⟩, hcause, ?_⟩
        rw [List.length_cons, Nat.add_assoc, Nat.add_comm 1]
      · cases hpure
    · rintro ⟨before, x, after, cause, hsplit, hbefore, hcause, rfl⟩
      cases before with
      | nil =>
        obtain ⟨rfl, rfl⟩ := List.cons.inj hsplit
        exact .inl ⟨cause, hcause, rfl⟩
      | cons _ before =>
        obtain ⟨rfl, rfl⟩ := List.cons.inj hsplit
        obtain ⟨⟨y, hy⟩, hbefore⟩ := List.forall_mem_cons.mp hbefore
        refine .inr ⟨y, hy, .inl ⟨before, x, after, cause, rfl, hbefore, hcause, ?_⟩⟩
        rw [List.length_cons, Nat.add_assoc, Nat.add_comm 1]

/-- Only what is read from each member counts. -/
theorem readFrom_congr {γ : Type} {read' : γ → Except ε β} {zs : List γ}
    (h : xs.map read = zs.map read') (start : Nat) :
    readFrom read fault start xs = readFrom read' fault start zs := by
  induction xs generalizing start zs with
  | nil => rw [List.map_eq_nil_iff.mp h.symm, readFrom, readFrom]
  | cons x xs ih =>
    obtain ⟨z, zs, rfl, hz, hzs⟩ := List.map_eq_cons_iff.mp h.symm
    rw [readFrom, readFrom, hz, ih hzs.symm]

end ReadFrom

end Except

end ClaimTree
