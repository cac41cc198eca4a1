import ClaimTree.Proofs.Tree.Path

namespace ClaimTree

namespace Path

/-- The pairs that are combined when a path is folded from a node. -/
def pairs (node : Node) : Path → List (Node × Node)
  | [] => []
  | step :: rest => step.pair node :: pairs (step.parent node) rest

theorem pairs_append (node : Node) (lower upper : Path) :
    Path.pairs node (lower ++ upper) =
      Path.pairs node lower ++ Path.pairs (lower.fold node) upper := by
  induction lower generalizing node with
  | nil => rfl
  | cons step rest ih => exact congrArg (List.cons _) (ih _)

theorem exists_pair_of_fold {path : Path} (hpath : path ≠ []) (node : Node) :
    ∃ pair ∈ path.pairs node, Node.above pair = path.fold node := by
  induction path generalizing node with
  | nil => exact absurd rfl hpath
  | cons step rest ih =>
    cases rest with
    | nil => exact ⟨step.pair node, List.mem_cons_self, rfl⟩
    | cons next rest =>
      obtain ⟨pair, hpair, habove⟩ := ih (List.cons_ne_nil _ _) (step.parent node)
      exact ⟨pair, List.mem_cons_of_mem _ hpair, habove⟩

end Path

namespace Tree

/-- The pairs that are combined to build a tree, layer by layer. -/
def pairs : Tree → List (Node × Node)
  | top _ => []
  | layer nodes above => neighbours nodes ++ above.pairs

/-- The tree without its lowest layers, up to the root. -/
def ascend : Tree → Nat → Tree
  | t, 0 => t
  | top node, _ + 1 => top node
  | layer _ above, levels + 1 => above.ascend levels

theorem root_ascend (t : Tree) (levels : Nat) : (t.ascend levels).root = t.root := by
  fun_induction ascend t levels with
  | case1 t => rfl
  | case2 node levels => rfl
  | case3 nodes above levels ih => exact ih

theorem depth_ascend (t : Tree) (levels : Nat) : (t.ascend levels).depth = t.depth - levels := by
  fun_induction ascend t levels with
  | case1 t => rfl
  | case2 node levels => exact (Nat.zero_sub _).symm
  | case3 nodes above levels ih => rw [ih, depth, Nat.add_sub_add_right]

theorem pairs_ascend_subset (t : Tree) (levels : Nat) : (t.ascend levels).pairs ⊆ t.pairs := by
  fun_induction ascend t levels with
  | case1 t => exact List.Subset.refl _
  | case2 node levels => exact List.Subset.refl _
  | case3 nodes above levels ih => exact List.subset_append_of_subset_right _ ih

theorem step?_of_neighbours {nodes : List Node} {place : Nat} {step : PathStep} {node : Node}
    (hpair : (neighbours nodes)[place]? = some (step.pair node)) :
    nodes[step.siblingIsLeft.toNat + 2 * place]? = some node ∧
      step? nodes (step.siblingIsLeft.toNat + 2 * place) = some step := by
  obtain ⟨sibling, side⟩ := step
  cases side with
  | true =>
    obtain ⟨hleft, hright⟩ := getElem?_neighbours.mp hpair
    have hodd : (1 + 2 * place) % 2 = 1 := by omega
    have hsibling : 1 + 2 * place - 1 = 2 * place := by omega
    refine ⟨by rwa [Nat.add_comm] at hright, ?_⟩
    simp [step?, hodd, hsibling, hleft]
  | false =>
    obtain ⟨hleft, hright⟩ := getElem?_neighbours.mp hpair
    refine ⟨by simpa using hleft, ?_⟩
    simp [step?, hright]

namespace Perfect

/-- The nodes over the leaves are the parents of the pairs, in order. -/
theorem flatten_layers {t : Tree} (ht : t.Perfect) :
    t.layers.flatten = t.leaves ++ t.pairs.map Node.above := by
  induction t with
  | top node => rfl
  | layer nodes above ih =>
    obtain ⟨habove, hleaves, -⟩ := ht
    rw [layers, List.flatten_cons, ih habove, hleaves, pairUp_eq, leaves, pairs, List.map_append]

theorem ascend {t : Tree} (ht : t.Perfect) (levels : Nat) : (t.ascend levels).Perfect := by
  fun_induction Tree.ascend t levels with
  | case1 t => exact ht
  | case2 node levels => trivial
  | case3 nodes above levels ih => exact ih ht.1

theorem exists_pair_of_ascend {t : Tree} (ht : t.Perfect) {levels : Nat} (hpos : 0 < levels)
    (hdepth : levels ≤ t.depth) {node : Node} (hnode : node ∈ (t.ascend levels).leaves) :
    ∃ pair ∈ t.pairs, Node.above pair = node := by
  fun_induction Tree.ascend t levels with
  | case1 t => cases hpos
  | case2 node levels => cases hdepth
  | case3 nodes above levels ih =>
    obtain ⟨habove, hleaves, -⟩ := ht
    rcases Nat.eq_zero_or_pos levels with rfl | hlevels
    · rw [Tree.ascend, hleaves, pairUp_eq] at hnode
      obtain ⟨pair, hpair, rfl⟩ := List.mem_map.mp hnode
      exact ⟨pair, List.mem_append_left _ hpair, rfl⟩
    · obtain ⟨pair, hpair, rfl⟩ := ih habove hlevels (Nat.le_of_succ_le_succ hdepth) hnode
      exact ⟨pair, List.mem_append_right _ hpair, rfl⟩

theorem pairs_steps_subset {t : Tree} (ht : t.Perfect) {index : Nat} {node : Node}
    (hnode : t.leaves[index]? = some node) : Path.pairs node (t.steps index) ⊆ t.pairs := by
  induction t generalizing index node with
  | top leaf => exact List.nil_subset _
  | layer nodes above ih =>
    obtain ⟨hindex, -⟩ := List.getElem?_eq_some_iff.mp hnode
    obtain ⟨step, hstep, hsteps⟩ := ht.exists_steps_eq hindex
    have hpair := neighbours_of_step? hstep hnode
    have hparent : above.leaves[index / 2]? = some (step.parent node) := by
      rw [ht.2.1, pairUp_eq, List.getElem?_map, hpair]
      rfl
    rw [hsteps, Path.pairs, pairs]
    apply List.cons_subset.mpr
    exact ⟨List.mem_append_left _ (List.mem_of_getElem? hpair),
      List.subset_append_of_subset_right _ (ih ht.1 hparent)⟩

/-- A path as long as the tree is deep that leads to the root is the path of the tree from the leaf
at its place. -/
theorem steps_of_fold {t : Tree} (ht : t.Perfect) {path : Path} {node : Node}
    (hlength : path.length = t.depth) (hroot : path.fold node = t.root) :
    (t.leaves[path.place]? = some node ∧ t.steps path.place = path) ∨
      Collision Node.above (t.pairs ++ path.pairs node) := by
  induction t generalizing path node with
  | top leaf =>
    obtain rfl := List.eq_nil_of_length_eq_zero hlength
    exact .inl ⟨congrArg some hroot.symm, rfl⟩
  | layer nodes above ih =>
    cases path with
    | nil => cases hlength
    | cons step rest =>
      -- The rest of the path leads to the root as well, so the parent stands in the tree, and
      -- unless there is a collision its pair is the one in the tree.
      rcases ih ht.1 (Nat.succ.inj hlength) hroot with ⟨hparent, hrest⟩ | hcollision
      · rw [ht.2.1, pairUp_eq, List.getElem?_map] at hparent
        obtain ⟨pair, hpair, habove⟩ := Option.map_eq_some_iff.mp hparent
        have htree : pair ∈ (layer nodes above).pairs ++ Path.pairs node (step :: rest) :=
          List.mem_append_left _ (List.mem_append_left _ (List.mem_of_getElem? hpair))
        have hpath : step.pair node ∈ (layer nodes above).pairs ++ Path.pairs node (step :: rest) :=
          List.mem_append_right _ List.mem_cons_self
        rcases eq_or_collision htree hpath habove with rfl | hcollision
        · obtain ⟨hnode, hstep⟩ := step?_of_neighbours hpair
          have hhalf : Path.place (step :: rest) / 2 = Path.place rest := by
            have hbit : step.siblingIsLeft.toNat < 2 := Bool.toNat_lt _
            rw [Path.place]
            omega
          refine .inl ⟨hnode, ?_⟩
          rw [steps_layer, hhalf, hrest]
          exact congrArg (·.toList ++ rest) hstep
        · exact .inr hcollision
      · refine .inr (hcollision.mono ?_)
        rw [pairs, Path.pairs]
        intro pair hpair
        rcases List.mem_append.mp hpair with htree | hpath
        · exact List.mem_append_left _ (List.mem_append_right _ htree)
        · exact List.mem_append_right _ (List.mem_cons_of_mem _ hpath)

end Perfect

end Tree

end ClaimTree
