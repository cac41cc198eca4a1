import ClaimTree.Proofs.Tree.Capacity
import ClaimTree.Proofs.Tree.Replace
import Mathlib.Tactic.Ring

namespace ClaimTree.Tree

/-- The root over leaves by halves: one leaf is its own root, and over more of them the root of the
first half is combined with that of the second. -/
def rootByHalves? (leaves : List Node) : Option Node :=
  match leaves with
  | [] => none
  | [leaf] => some leaf
  | first :: second :: rest => do
    let leaves := first :: second :: rest
    let left ← rootByHalves? (leaves.take (leaves.length / 2))
    let right ← rootByHalves? (leaves.drop (leaves.length / 2))
    return left.combine right
termination_by leaves.length
decreasing_by
  · simp only [List.length_take, List.length_cons]
    omega
  · simp only [List.length_drop, List.length_cons]
    omega

/-- The leaves below node number `index` of a layer. -/
def block (leaves : List Node) (level index : Nat) : List Node :=
  (leaves.drop (index * 2 ^ level)).take (2 ^ level)

section Blocks

variable {leaves left right : List Node} {level index : Nat}

theorem rootByHalves?_append (hlength : left.length = right.length) (hpos : 0 < left.length) :
    rootByHalves? (left ++ right) = do
      return (← rootByHalves? left).combine (← rootByHalves? right) := by
  have hhalf : (left ++ right).length / 2 = left.length := by
    rw [List.length_append]
    omega
  have hleft : (left ++ right).take left.length = left := List.take_left
  have hright : (left ++ right).drop left.length = right := List.drop_left
  rw [← hhalf] at hleft hright
  obtain ⟨first, second, rest, hcons⟩ : ∃ first second rest,
      left ++ right = first :: second :: rest := by
    match left, right with
    | [first], [second] => exact ⟨first, second, [], rfl⟩
    | first :: second :: rest, right => exact ⟨first, second, rest ++ right, rfl⟩
  rw [hcons] at hleft hright ⊢
  rw [rootByHalves?, hleft, hright]

theorem block_succ (leaves : List Node) (level index : Nat) :
    block leaves (level + 1) index =
      block leaves level (2 * index) ++ block leaves level (2 * index + 1) := by
  have hstart : index * 2 ^ (level + 1) = 2 * index * 2 ^ level := by ring
  have hnext : 2 * index * 2 ^ level + 2 ^ level = (2 * index + 1) * 2 ^ level := by ring
  have hsize : 2 ^ (level + 1) = 2 ^ level + 2 ^ level := by ring
  rw [block, hstart, hsize, List.take_add, List.drop_drop, hnext]
  rfl

theorem length_block (h : (index + 1) * 2 ^ level ≤ leaves.length) :
    (block leaves level index).length = 2 ^ level := by
  rw [Nat.succ_mul] at h
  rw [block, List.length_take, List.length_drop]
  omega

theorem getElem?_pairUp {nodes : List Node} {a b : Node} (ha : nodes[2 * index]? = some a)
    (hb : nodes[2 * index + 1]? = some b) : (pairUp nodes)[index]? = some (a.combine b) := by
  rw [pairUp_eq, List.getElem?_map, getElem?_neighbours.mpr ⟨ha, hb⟩]
  rfl

/-- What comes from pairing again and again is, place by place, the root of a block. -/
theorem rootByHalves?_block (h : (index + 1) * 2 ^ level ≤ leaves.length) :
    rootByHalves? (block leaves level index) = (pairUp^[level] leaves)[index]? := by
  induction level generalizing index with
  | zero =>
    have hindex : index < leaves.length := by rwa [pow_zero, Nat.mul_one] at h
    have hblock : block leaves 0 index = [leaves[index]] := by
      rw [block, pow_zero, Nat.mul_one, List.drop_eq_getElem_cons hindex]
      rfl
    rw [hblock, rootByHalves?, Function.iterate_zero_apply, List.getElem?_eq_getElem hindex]
  | succ level ih =>
    have hsecond : (2 * index + 1 + 1) * 2 ^ level ≤ leaves.length := by
      calc (2 * index + 1 + 1) * 2 ^ level = (index + 1) * 2 ^ (level + 1) := by ring
        _ ≤ leaves.length := h
    have hfirst : (2 * index + 1) * 2 ^ level ≤ leaves.length :=
      Nat.le_trans (Nat.mul_le_mul_right _ (Nat.le_succ _)) hsecond
    -- Both blocks are there, so the nodes over them are two neighbours of the layer below.
    have hlength : 2 * index + 1 < (pairUp^[level] leaves).length := by
      rw [length_iterate_pairUp, Nat.lt_iff_add_one_le, Nat.le_div_iff_mul_le (Nat.two_pow_pos _)]
      exact hsecond
    have ha := List.getElem?_eq_getElem (Nat.lt_of_succ_lt hlength)
    have hb := List.getElem?_eq_getElem hlength
    rw [block_succ, rootByHalves?_append, ih hfirst, ih hsecond, ha, hb,
      Function.iterate_succ_apply', getElem?_pairUp ha hb]
    · rfl
    · rw [length_block hfirst, length_block hsecond]
    · rw [length_block hfirst]
      exact Nat.two_pow_pos level

end Blocks

section Layers

variable {t : Tree} {level : Nat}

theorem length_layers (t : Tree) : t.layers.length = t.depth + 1 := by
  obtain ⟨lower, hlayers, hlength⟩ := t.exists_layers_eq
  rw [hlayers, List.length_append, hlength]
  rfl

theorem getElem?_layers_depth (t : Tree) : t.layers[t.depth]? = some [t.root] := by
  obtain ⟨lower, hlayers, hlength⟩ := t.exists_layers_eq
  rw [hlayers, ← hlength, List.getElem?_concat_length]

/-- The layers of a perfect tree are the leaves paired again and again. -/
theorem Perfect.getElem?_layers (ht : t.Perfect) (hlevel : level ≤ t.depth) :
    t.layers[level]? = some (pairUp^[level] t.leaves) := by
  induction t generalizing level with
  | top node =>
    obtain rfl := Nat.le_zero.mp hlevel
    rfl
  | layer nodes above ih =>
    cases level with
    | zero => rfl
    | succ level =>
      rw [layers, List.getElem?_cons_succ, ih ht.1 (Nat.le_of_succ_le_succ hlevel), ht.2.1,
        leaves, Function.iterate_succ_apply]

theorem Perfect.node?_eq (ht : t.Perfect) (hlevel : level ≤ t.depth) (place : Nat) :
    t.node? level place = (pairUp^[level] t.leaves)[place]? := by
  rw [node?, ht.getElem?_layers hlevel]
  rfl

theorem Perfect.length_layer (ht : t.Perfect) (hlevel : level ≤ t.depth) :
    (pairUp^[level] t.leaves).length = 2 ^ (t.depth - level) := by
  rw [length_iterate_pairUp]
  change t.leafCount / 2 ^ level = _
  rw [ht.leafCount_eq, Nat.pow_div hlevel (by decide)]

/-- There is a node over every block of leaves. -/
theorem Perfect.block_le (ht : t.Perfect) (hlevel : level ≤ t.depth) {index : Nat}
    (hindex : index < 2 ^ (t.depth - level)) : (index + 1) * 2 ^ level ≤ t.leaves.length := by
  change _ ≤ t.leafCount
  calc (index + 1) * 2 ^ level ≤ 2 ^ (t.depth - level) * 2 ^ level :=
        Nat.mul_le_mul_right _ hindex
    _ = t.leafCount := by rw [ht.leafCount_eq, Nat.pow_sub_mul_pow 2 hlevel]

end Layers

/-- Over a power of two of leaves there is a tree with one layer more than it is deep. Each layer
holds the parents of the one below, and any node is the root by halves of its block of leaves. -/
theorem layers_by_halves {depth : Nat} {leaves : List Node} (hlength : leaves.length = 2 ^ depth) :
    ∃ t : Tree, ofLeaves leaves = .ok t ∧
      t.layers.length = depth + 1 ∧ t.layers[0]? = some leaves ∧
      t.layers[depth]? = some [t.root] ∧ rootByHalves? leaves = some t.root ∧
      (∀ level ≤ depth, ∃ nodes, t.layers[level]? = some nodes ∧
        nodes.length = 2 ^ (depth - level) ∧
        ∀ index (hindex : index < nodes.length),
          rootByHalves? (block leaves level index) = some nodes[index]) ∧
      ∀ level < depth, ∀ index < 2 ^ (depth - (level + 1)), ∃ left right,
        t.node? level (2 * index) = some left ∧ t.node? level (2 * index + 1) = some right ∧
        t.node? (level + 1) index = some (left.combine right) := by
  obtain ⟨t, ht, rfl⟩ := exists_perfect depth leaves hlength
  obtain rfl : t.depth = depth := ht.depth_eq hlength
  have hblock {level index : Nat} (hlevel : level ≤ t.depth)
      (hindex : index < 2 ^ (t.depth - level)) :
      rootByHalves? (block t.leaves level index) = (pairUp^[level] t.leaves)[index]? :=
    rootByHalves?_block (ht.block_le hlevel hindex)
  refine ⟨t, ht.ofLeaves_leaves, length_layers t, ht.getElem?_layers (Nat.zero_le _),
    getElem?_layers_depth t, ?_, fun level hlevel => ?_, fun level hlevel index hindex => ?_⟩
  · have hall : block t.leaves t.depth 0 = t.leaves := by
      rw [block, Nat.zero_mul, List.drop_zero, ← hlength, List.take_length]
    have htop : pairUp^[t.depth] t.leaves = [t.root] := by
      rw [← Option.some_inj, ← ht.getElem?_layers (Nat.le_refl _), getElem?_layers_depth]
    rw [← hall, hblock (Nat.le_refl _) (Nat.two_pow_pos _), htop]
    rfl
  · refine ⟨_, ht.getElem?_layers hlevel, ht.length_layer hlevel, fun index hindex => ?_⟩
    rw [hblock hlevel (ht.length_layer hlevel ▸ hindex), List.getElem?_eq_getElem hindex]
  · have hpair : 2 * index + 1 < (pairUp^[level] t.leaves).length := by
      rw [ht.length_layer (Nat.le_of_lt hlevel)]
      have hsize : 2 ^ (t.depth - level) = 2 * 2 ^ (t.depth - (level + 1)) := by
        rw [← pow_succ', Nat.sub_add_eq, Nat.sub_add_cancel (Nat.sub_pos_of_lt hlevel)]
      omega
    have hleft := List.getElem?_eq_getElem (Nat.lt_of_succ_lt hpair)
    have hright := List.getElem?_eq_getElem hpair
    refine ⟨_, _, (ht.node?_eq (Nat.le_of_lt hlevel) _).trans hleft,
      (ht.node?_eq (Nat.le_of_lt hlevel) _).trans hright, ?_⟩
    rw [ht.node?_eq hlevel, Function.iterate_succ_apply', getElem?_pairUp hleft hright]

theorem layers_by_halves_four :
    let node (n : UInt64) := Node.ofUint256 (.ofUInt64 n)
    let leaves := [node 1, node 2, node 3, node 4]
    leaves.length = 2 ^ 2 ∧ ∃ t : Tree, ofLeaves leaves = .ok t ∧ t.layers.length = 3 ∧
      t.root = ((node 1).combine (node 2)).combine ((node 3).combine (node 4)) ∧
      ∃ nodes, t.layers[1]? = some nodes ∧ nodes.length = 2 ∧
        nodes[1]? = some ((node 3).combine (node 4)) := by
  intro node leaves
  have hfour : leaves.length = 2 ^ 2 := rfl
  have hpair (a b : Node) : rootByHalves? [a, b] = some (a.combine b) := by
    simp [rootByHalves?]
  have hhalves : rootByHalves? leaves =
      some (((node 1).combine (node 2)).combine ((node 3).combine (node 4))) := by
    have happend : rootByHalves? ([node 1, node 2] ++ [node 3, node 4]) = _ :=
      rootByHalves?_append (by rfl) (by simp)
    rw [hpair, hpair] at happend
    exact happend
  obtain ⟨t, ht, hlayers, -, -, hroot, hblocks, -⟩ := layers_by_halves hfour
  obtain ⟨nodes, hnodes, hlength, hblock⟩ := hblocks 1 (by decide)
  refine ⟨hfour, t, ht, hlayers, Option.some.inj (hroot.symm.trans hhalves), nodes, hnodes,
    hlength, ?_⟩
  have hone : 1 < nodes.length := hlength ▸ (by decide)
  rw [List.getElem?_eq_getElem hone, ← hblock 1 hone]
  exact hpair (node 3) (node 4)

end ClaimTree.Tree
