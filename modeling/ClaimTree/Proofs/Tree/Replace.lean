import ClaimTree.Proofs.Tree.Path

namespace ClaimTree

namespace Tree

/-- The node at a place of a layer, the leaves being layer 0. -/
def node? (t : Tree) (level place : Nat) : Option Node := t.layers[level]?.bind (·[place]?)

/-- The tree with another node at a place of its lowest layer and new nodes on the way up. -/
def replace : Tree → Nat → Node → Tree
  | top _, _, node => top node
  | layer nodes above, index, node =>
    layer (nodes.set index node)
      (above.replace (index / 2) (Path.fold node (step? nodes index).toList))

theorem root_replace (t : Tree) (index : Nat) (node : Node) :
    (t.replace index node).root = Path.fold node (t.steps index) := by
  induction t generalizing index node with
  | top old => rfl
  | layer nodes above ih => rw [replace, root, ih, steps_layer, Path.fold_append]

theorem depth_replace (t : Tree) (index : Nat) (node : Node) :
    (t.replace index node).depth = t.depth := by
  induction t generalizing index node with
  | top old => rfl
  | layer nodes above ih => rw [replace, depth, ih, depth]

theorem step?_set (nodes : List Node) (index : Nat) (node : Node) :
    step? (nodes.set index node) index = step? nodes index := by
  have hother : index ≠ if index % 2 == 1 then index - 1 else index + 1 := by
    simp only [beq_iff_eq]
    split <;> omega
  rw [step?, step?, List.getElem?_set_ne hother]

theorem steps_replace (t : Tree) (index : Nat) (node : Node) :
    (t.replace index node).steps index = t.steps index := by
  induction t generalizing index node with
  | top old => rfl
  | layer nodes above ih => rw [replace, steps_layer, step?_set, ih, steps_layer]

theorem neighbours_set {nodes : List Node} {index : Nat} {step : PathStep}
    (hstep : step? nodes index = some step) (hindex : index < nodes.length) (node : Node) :
    neighbours (nodes.set index node) = (neighbours nodes).set (index / 2) (step.pair node) := by
  apply List.ext_getElem?
  intro place
  by_cases hplace : index / 2 = place
  · subst place
    have hnew : (nodes.set index node)[index]? = some node := List.getElem?_set_self hindex
    have hpair := neighbours_of_step? ((step?_set nodes index node).trans hstep) hnew
    have hold := neighbours_of_step? hstep (List.getElem?_eq_getElem hindex)
    obtain ⟨hbound, -⟩ := List.getElem?_eq_some_iff.mp hold
    rw [hpair, List.getElem?_set_self hbound]
  · rw [List.getElem?_set_ne hplace]
    apply Option.ext
    rintro ⟨left, right⟩
    rw [getElem?_neighbours, getElem?_neighbours, List.getElem?_set_ne (by omega),
      List.getElem?_set_ne (by omega)]

theorem pairUp_set {nodes : List Node} {index : Nat} {step : PathStep}
    (hstep : step? nodes index = some step) (hindex : index < nodes.length) (node : Node) :
    pairUp (nodes.set index node) = (pairUp nodes).set (index / 2) (step.parent node) := by
  rw [pairUp_eq, neighbours_set hstep hindex, List.map_set, ← pairUp_eq]
  rfl

namespace Perfect

variable {t : Tree} {index : Nat}

theorem leaves_replace (ht : t.Perfect) (hindex : index < t.leafCount) (node : Node) :
    (t.replace index node).leaves = t.leaves.set index node := by
  cases t with
  | top old =>
    have hzero : index = 0 := by simpa [leafCount, leaves] using hindex
    rw [hzero]
    rfl
  | layer nodes above => rfl

theorem replace (ht : t.Perfect) (hindex : index < t.leafCount) (node : Node) :
    (t.replace index node).Perfect := by
  induction t generalizing index node with
  | top old => trivial
  | layer nodes above ih =>
    obtain ⟨step, hstep, -⟩ := ht.exists_steps_eq hindex
    have hhalf := ht.half_lt hindex
    obtain ⟨habove, hleaves, hlength⟩ := ht
    rw [Tree.replace, hstep]
    refine ⟨ih habove hhalf _, ?_, ?_⟩
    · rw [habove.leaves_replace hhalf, hleaves, pairUp_set hstep hindex]
      rfl
    · rw [leafCount, habove.leaves_replace hhalf, List.length_set, List.length_set, hlength]
      rfl

/-- Every other node stays: at each level only the one above the leaf is new. -/
theorem node?_replace (ht : t.Perfect) (hindex : index < t.leafCount) {level place : Nat}
    (hplace : place ≠ index / 2 ^ level) (node : Node) :
    (t.replace index node).node? level place = t.node? level place := by
  induction t generalizing index level node with
  | top old =>
    have hzero : index = 0 := by simpa [leafCount, leaves] using hindex
    subst index
    cases level with
    | zero =>
      obtain ⟨before, rfl⟩ := Nat.exists_eq_succ_of_ne_zero (by simpa using hplace)
      rfl
    | succ level => rfl
  | layer nodes above ih =>
    cases level with
    | zero =>
      have hother : index ≠ place := by simpa using hplace.symm
      exact List.getElem?_set_ne hother
    | succ level =>
      apply ih ht.1 (ht.half_lt hindex)
      rwa [Nat.div_div_eq_div_mul, Nat.mul_comm, ← pow_succ]

theorem ofLeaves_set (ht : t.Perfect) (hindex : index < t.leafCount) (node : Node) :
    ofLeaves (t.leaves.set index node) = .ok (t.replace index node) :=
  ofLeaves_eq_ok_iff.mpr ⟨ht.replace hindex node, ht.leaves_replace hindex node⟩

/-- Folding the path of a place from the leaf that stands there gives the root. -/
theorem fold_steps (ht : t.Perfect) {node : Node} (hnode : t.leaves[index]? = some node) :
    Path.fold node (t.steps index) = t.root := by
  obtain ⟨hindex, rfl⟩ := List.getElem?_eq_some_iff.mp hnode
  have hset := ht.ofLeaves_set hindex t.leaves[index]
  rw [List.set_getElem_self, ht.ofLeaves_leaves] at hset
  rw [← root_replace, ← Except.ok.inj hset]

end Perfect

/-- A path leads from any leaf to the root of the tree in which that leaf stands at its place. Old
and new tree share the path, and no node beside the way up differs. -/
theorem fold_path_eq_root_set {depth index : Nat} {leaves : List Node}
    (hlength : leaves.length = 2 ^ depth) (hindex : index < leaves.length) (node : Node) :
    ∃ old new : Tree, ∃ path : Path,
      ofLeaves leaves = .ok old ∧ ofLeaves (leaves.set index node) = .ok new ∧
      old.path index = .ok path ∧ new.path index = .ok path ∧
      path.fold node = new.root ∧
      old.leaf index = .ok leaves[index] ∧ path.fold leaves[index] = old.root ∧
      new.depth = old.depth ∧
      ∀ level place, place ≠ index / 2 ^ level → new.node? level place = old.node? level place := by
  obtain ⟨t, ht, rfl⟩ := exists_perfect depth leaves hlength
  have hnode : t.leaves[index]? = some t.leaves[index] := List.getElem?_eq_getElem hindex
  refine ⟨t, t.replace index node, t.steps index, ht.ofLeaves_leaves, ht.ofLeaves_set hindex node,
    path_eq_ok hindex, ?_, ?_, leaf_eq_ok hnode, ht.fold_steps hnode, depth_replace t index node,
    ?_⟩
  · have hcount : (t.replace index node).leafCount = t.leafCount := by
      rw [leafCount, ht.leaves_replace hindex, List.length_set, leafCount]
    rw [path_eq_ok (by rwa [hcount]), steps_replace]
  · rw [root_replace]
  · intro level place hplace
    exact ht.node?_replace hindex hplace node

theorem fold_path_eq_root_set_third_of_four :
    let leaves := [1, 2, 3, 4].map fun n => Node.ofUint256 (.ofUInt64 n)
    leaves.length = 2 ^ 2 ∧ 2 < leaves.length ∧
    ∃ old new : Tree, ∃ path : Path,
      ofLeaves leaves = .ok old ∧ ofLeaves (leaves.set 2 (.ofUint256 (.ofUInt64 5))) = .ok new ∧
      old.path 2 = .ok path ∧ new.path 2 = .ok path ∧
      path.fold (.ofUint256 (.ofUInt64 5)) = new.root ∧
      new.node? 1 0 = old.node? 1 0 := by
  intro leaves
  obtain ⟨old, new, path, hold, hnew, hpath, hpath', hroot, -, -, -, hothers⟩ :=
    fold_path_eq_root_set (show leaves.length = 2 ^ 2 from rfl) (show 2 < leaves.length by decide)
      (.ofUint256 (.ofUInt64 5))
  exact ⟨rfl, by decide, old, new, path, hold, hnew, hpath, hpath', hroot,
    hothers 1 0 (by decide)⟩

end Tree

end ClaimTree
