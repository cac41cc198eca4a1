import ClaimTree.Proofs.Tree.Perfect

namespace ClaimTree

namespace Path

/-- The number whose bit at a level is set where the sibling of that level is on the left. -/
def place : Path → Nat
  | [] => 0
  | step :: rest => step.siblingIsLeft.toNat + 2 * place rest

theorem place_lt (path : Path) : path.place < 2 ^ path.length := by
  induction path with
  | nil => simp [place]
  | cons step rest ih =>
    have hbit : step.siblingIsLeft.toNat < 2 := Bool.toNat_lt _
    rw [place, List.length_cons, pow_succ]
    omega

theorem testBit_place (path : Path) (level : Nat) :
    path.place.testBit level = path.sides[level]?.getD false := by
  induction path generalizing level with
  | nil => simp [place, sides]
  | cons step rest ih =>
    cases level with
    | zero =>
      rw [place, Nat.testBit_zero]
      cases hs : step.siblingIsLeft <;> simp [sides, hs]
    | succ level =>
      have hhalf : (step.siblingIsLeft.toNat + 2 * place rest) / 2 = place rest := by
        have hbit : step.siblingIsLeft.toNat < 2 := Bool.toNat_lt _
        omega
      rw [place, Nat.testBit_succ, hhalf, ih]
      rfl

theorem testBit_place_of_lt {path : Path} {level : Nat} (hlevel : level < path.length) :
    path.place.testBit level = path[level].siblingIsLeft := by
  rw [testBit_place, sides, List.getElem?_map, List.getElem?_eq_getElem hlevel]
  rfl

theorem fold_append (node : Node) (lower upper : Path) :
    Path.fold node (lower ++ upper) = Path.fold (Path.fold node lower) upper :=
  List.foldl_append

end Path

namespace Tree

def step? (nodes : List Node) (index : Nat) : Option PathStep :=
  nodes[if index % 2 == 1 then index - 1 else index + 1]?.map (PathStep.mk · (index % 2 == 1))

theorem steps_layer (nodes : List Node) (above : Tree) (index : Nat) :
    (layer nodes above).steps index = (step? nodes index).toList ++ above.steps (index / 2) := rfl

theorem siblingIsLeft_of_step? {nodes : List Node} {index : Nat} {step : PathStep}
    (hstep : step? nodes index = some step) : step.siblingIsLeft = (index % 2 == 1) := by
  obtain ⟨sibling, -, rfl⟩ := Option.map_eq_some_iff.mp hstep
  rfl

theorem siblingPlace_lt {length index : Nat} (heven : length % 2 = 0) (hindex : index < length) :
    (if index % 2 == 1 then index - 1 else index + 1) < length := by
  simp only [beq_iff_eq]
  split <;> omega

theorem exists_step? {nodes : List Node} {index : Nat} (heven : nodes.length % 2 = 0)
    (hindex : index < nodes.length) : ∃ step, step? nodes index = some step := by
  have hsibling := siblingPlace_lt heven hindex
  exact ⟨_, by rw [step?, List.getElem?_eq_getElem hsibling, Option.map_some]⟩

/-- A node and its sibling are the two neighbours under their parent. -/
theorem neighbours_of_step? {nodes : List Node} {index : Nat} {step : PathStep} {node : Node}
    (hstep : step? nodes index = some step) (hnode : nodes[index]? = some node) :
    (neighbours nodes)[index / 2]? = some (step.pair node) := by
  obtain ⟨sibling, hsibling, rfl⟩ := Option.map_eq_some_iff.mp hstep
  cases hside : index % 2 == 1 with
  | true =>
    rw [hside, if_pos rfl] at hsibling
    have hodd : index % 2 = 1 := by simpa using hside
    refine getElem?_neighbours.mpr ⟨?_, ?_⟩
    · rwa [show 2 * (index / 2) = index - 1 by omega]
    · rwa [show 2 * (index / 2) + 1 = index by omega]
  | false =>
    rw [hside, if_neg Bool.false_ne_true] at hsibling
    have heven : index % 2 = 0 := by simpa using hside
    refine getElem?_neighbours.mpr ⟨?_, ?_⟩
    · rwa [show 2 * (index / 2) = index by omega]
    · rwa [show 2 * (index / 2) + 1 = index + 1 by omega]

theorem path_eq_ok {t : Tree} {index : Nat} (hindex : index < t.leafCount) :
    t.path index = .ok (t.steps index) := if_pos hindex

theorem path_eq_error_iff {t : Tree} {index : Nat} {e : TreeError} :
    t.path index = .error e ↔ t.leafCount ≤ index ∧ e = .indexOutOfRange index t.leafCount := by
  rw [path]
  split
  · next hindex => exact iff_of_false nofun fun h => Nat.not_lt.mpr h.1 hindex
  · next hindex =>
    rw [Except.error.injEq, and_iff_right (Nat.le_of_not_lt hindex)]
    exact eq_comm

theorem path_eq_ok_iff {t : Tree} {index : Nat} {path : Path} :
    t.path index = .ok path ↔ index < t.leafCount ∧ path = t.steps index := by
  rw [Tree.path]
  split
  · next hindex =>
    rw [Except.ok.injEq, and_iff_right hindex]
    exact eq_comm
  · next hindex => exact iff_of_false nofun fun h => hindex h.1

theorem leaf_eq_ok_iff {t : Tree} {index : Nat} {node : Node} :
    t.leaf index = .ok node ↔ t.leaves[index]? = some node := by
  rw [leaf]
  cases t.leaves[index]? with
  | none => exact iff_of_false nofun nofun
  | some other => rw [Except.ok.injEq, Option.some.injEq]

theorem leaf_eq_ok {t : Tree} {index : Nat} {node : Node} (hnode : t.leaves[index]? = some node) :
    t.leaf index = .ok node := leaf_eq_ok_iff.mpr hnode

namespace Perfect

variable {t : Tree} {nodes : List Node} {above : Tree} {index : Nat}

theorem half_lt (ht : (layer nodes above).Perfect) (hindex : index < nodes.length) :
    index / 2 < above.leafCount := by
  have hlength := ht.2.2
  omega

theorem exists_steps_eq (ht : (layer nodes above).Perfect) (hindex : index < nodes.length) :
    ∃ step, step? nodes index = some step ∧
      (layer nodes above).steps index = step :: above.steps (index / 2) := by
  have hlength := ht.2.2
  obtain ⟨step, hstep⟩ := exists_step? (by omega) hindex
  exact ⟨step, hstep, by rw [steps_layer, hstep]; rfl⟩

theorem length_steps (ht : t.Perfect) (hindex : index < t.leafCount) :
    (t.steps index).length = t.depth := by
  induction t generalizing index with
  | top node => rfl
  | layer nodes above ih =>
    obtain ⟨step, -, hsteps⟩ := ht.exists_steps_eq hindex
    rw [hsteps, List.length_cons, ih ht.1 (ht.half_lt hindex), depth]

theorem place_steps (ht : t.Perfect) (hindex : index < t.leafCount) :
    Path.place (t.steps index) = index := by
  induction t generalizing index with
  | top node =>
    have hzero : index = 0 := by simpa [leafCount, leaves] using hindex
    rw [hzero, steps, Path.place]
  | layer nodes above ih =>
    obtain ⟨step, hstep, hsteps⟩ := ht.exists_steps_eq hindex
    rw [hsteps, Path.place, ih ht.1 (ht.half_lt hindex), siblingIsLeft_of_step? hstep]
    rcases Nat.mod_two_eq_zero_or_one index with hmod | hmod <;> simp [hmod] <;> omega

end Perfect

end Tree

end ClaimTree
