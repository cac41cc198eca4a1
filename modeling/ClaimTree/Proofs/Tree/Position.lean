import ClaimTree.Proofs.Tree.Binding
import ClaimTree.Proofs.Tree.Replace

namespace ClaimTree.Tree

namespace Perfect

variable {t other : Tree}

/-- Of two trees with one root and equally many leaves the first has at every place the leaf of
the second: the path of the second leads to the root of the first. -/
theorem leaf_of_root_eq (ht : t.Perfect) (hother : other.Perfect)
    (hcount : other.leafCount = t.leafCount) (hroot : other.root = t.root) {index : Nat}
    {node : Node} (hnode : other.leaves[index]? = some node) :
    t.leaves[index]? = some node ∨ Collision Node.above (t.pairs ++ other.pairs) := by
  obtain ⟨hindex, -⟩ := List.getElem?_eq_some_iff.mp hnode
  have hdepth : other.depth = t.depth := hother.depth_eq (hcount.trans ht.leafCount_eq)
  have hlength : (other.steps index).length = t.depth := (hother.length_steps hindex).trans hdepth
  have hfold : Path.fold node (other.steps index) = t.root := (hother.fold_steps hnode).trans hroot
  rcases ht.steps_of_fold hlength hfold with ⟨hleaf, -⟩ | hcollision
  · rw [hother.place_steps hindex] at hleaf
    exact .inl hleaf
  · refine .inr (hcollision.mono (List.append_subset.mpr ⟨List.subset_append_left _ _, ?_⟩))
    exact List.subset_append_of_subset_right _ (hother.pairs_steps_subset hnode)

theorem leaves_eq_of_root_eq (ht : t.Perfect) (hother : other.Perfect)
    (hcount : other.leafCount = t.leafCount) (hroot : other.root = t.root) :
    other.leaves = t.leaves ∨ Collision Node.above (t.pairs ++ other.pairs) := by
  by_cases hcollision : Collision Node.above (t.pairs ++ other.pairs)
  · exact .inr hcollision
  refine .inl (List.ext_getElem? fun index => ?_)
  cases hnode : other.leaves[index]? with
  | some node =>
    exact ((ht.leaf_of_root_eq hother hcount hroot hnode).resolve_right hcollision).symm
  | none =>
    have hbeyond : t.leaves.length ≤ index := by
      have hle := List.getElem?_eq_none_iff.mp hnode
      exact Nat.le_trans (Nat.le_of_eq hcount.symm) hle
    exact (List.getElem?_eq_none hbeyond).symm

end Perfect

/-- Whatever node and whatever path of full length lead to the root: the sides of the path spell a
place, the node is the leaf there and the path that of the tree, or two of the pairs combined
collide. So no other leaves, as many, have the same root. -/
theorem leaf_of_fold_eq_root {depth : Nat} {leaves : List Node}
    (hlength : leaves.length = 2 ^ depth) :
    ∃ t : Tree, ofLeaves leaves = .ok t ∧ t.depth = depth ∧
      (∀ (node : Node) (path : Path), path.length = t.depth → path.fold node = t.root →
        (∃ index < leaves.length,
          (∀ level (hlevel : level < path.length),
            index.testBit level = path[level].siblingIsLeft) ∧
          t.leaf index = .ok node ∧ t.path index = .ok path) ∨
        Collision Node.above (t.pairs ++ path.pairs node)) ∧
      ∀ others : List Node, others.length = leaves.length →
        ∃ other : Tree, ofLeaves others = .ok other ∧
          (other.root = t.root →
            others = leaves ∨ Collision Node.above (t.pairs ++ other.pairs)) := by
  obtain ⟨t, ht, rfl⟩ := exists_perfect depth leaves hlength
  have hdepth : t.depth = depth := ht.depth_eq hlength
  refine ⟨t, ht.ofLeaves_leaves, hdepth, ?_, ?_⟩
  · intro node path hpath hroot
    rcases ht.steps_of_fold hpath hroot with ⟨hnode, hsteps⟩ | hcollision
    · obtain ⟨hplace, -⟩ := List.getElem?_eq_some_iff.mp hnode
      refine .inl ⟨path.place, hplace, ?_, leaf_eq_ok hnode, ?_⟩
      · intro level hlevel
        exact Path.testBit_place_of_lt hlevel
      · rw [path_eq_ok hplace, hsteps]
    · exact .inr hcollision
  · intro others hothers
    obtain ⟨other, hperfect, rfl⟩ := exists_perfect depth others (hothers.trans hlength)
    exact ⟨other, hperfect.ofLeaves_leaves, ht.leaves_eq_of_root_eq hperfect hothers⟩

theorem leaf_of_fold_eq_root_second_of_two :
    let nodes := [1, 2].map fun n => Node.ofUint256 (.ofUInt64 n)
    let path : Path := [⟨nodes[0], true⟩]
    nodes.length = 2 ^ 1 ∧
    ∃ t : Tree, ofLeaves nodes = .ok t ∧ path.length = t.depth ∧ path.fold nodes[1] = t.root ∧
      ((∃ index < 2, index.testBit 0 = true ∧ t.leaf index = .ok nodes[1]) ∨
        Collision Node.above (t.pairs ++ path.pairs nodes[1])) := by
  intro nodes path
  have htwo : nodes.length = 2 ^ 1 := rfl
  obtain ⟨t, ht, hdepth, hfold, -⟩ := leaf_of_fold_eq_root htwo
  have hlength : path.length = t.depth := hdepth.symm
  have hroot : path.fold nodes[1] = t.root := by
    obtain ⟨hperfect, hleaves⟩ := ofLeaves_eq_ok_iff.mp ht
    have hnode : t.leaves[1]? = some nodes[1] := by rw [hleaves]; rfl
    have hsteps : t.steps 1 = path := by
      cases t with
      | top node => cases hdepth
      | layer lowest above =>
        obtain rfl : lowest = nodes := hleaves
        cases above with
        | top node => rfl
        | layer nodes above => cases hdepth
    rw [← hperfect.fold_steps hnode, hsteps]
  refine ⟨htwo, t, ht, hlength, hroot, ?_⟩
  rcases hfold nodes[1] path hlength hroot with ⟨index, hindex, hsides, hleaf, -⟩ | hcollision
  · exact .inl ⟨index, hindex, hsides 0 (by decide), hleaf⟩
  · exact .inr hcollision

end ClaimTree.Tree
