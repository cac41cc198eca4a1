import ClaimTree.Proofs.Tree.Path

namespace ClaimTree

/-- A node combined with itself, and what comes of it with itself again, so many times. -/
def Node.doubled (node : Node) : Nat → Node
  | 0 => node
  | levels + 1 => (node.doubled levels).combine (node.doubled levels)

theorem Node.doubled_combine (node : Node) (levels : Nat) :
    (node.combine node).doubled levels = node.doubled (levels + 1) := by
  induction levels with
  | zero => rfl
  | succ levels ih =>
    rw [doubled, ih]
    rfl

namespace Tree

/-- The tree over the leaves of two equally deep trees, one after the other. -/
def join : Tree → Tree → Tree
  | layer nodes above, layer nodes' above' => layer (nodes ++ nodes') (above.join above')
  | t, u => layer [t.root, u.root] (top (t.root.combine u.root))

theorem pairUp_append {left : List Node} (heven : left.length % 2 = 0) (right : List Node) :
    pairUp (left ++ right) = pairUp left ++ pairUp right := by
  fun_induction pairUp left with
  | case1 first second rest ih =>
    have hrest : rest.length % 2 = 0 := by
      rw [List.length_cons, List.length_cons] at heven
      omega
    rw [List.cons_append, List.cons_append, pairUp, ih hrest]
    rfl
  | case2 left short =>
    cases left with
    | nil => rfl
    | cons first rest =>
      cases rest with
      | nil => cases heven
      | cons second rest => exact absurd rfl (short first second rest)

theorem pairUp_replicate (count : Nat) (node : Node) :
    pairUp (List.replicate (2 * count) node) = List.replicate count (node.combine node) := by
  induction count with
  | zero => rfl
  | succ count ih =>
    have hsize : 2 * (count + 1) = 2 * count + 1 + 1 := by omega
    rw [hsize, List.replicate_succ, List.replicate_succ, pairUp, ih, List.replicate_succ]

theorem step?_append {nodes : List Node} {index : Nat} (heven : nodes.length % 2 = 0)
    (hindex : index < nodes.length) (others : List Node) :
    step? (nodes ++ others) index = step? nodes index := by
  rw [step?, step?, List.getElem?_append_left (siblingPlace_lt heven hindex)]

section Join

variable {t u : Tree}

theorem root_join (hdepth : t.depth = u.depth) : (t.join u).root = t.root.combine u.root := by
  induction t generalizing u with
  | top node => rfl
  | layer nodes above ih =>
    cases u with
    | top node => cases hdepth
    | layer nodes' above' => exact ih (Nat.succ.inj hdepth)

theorem depth_join (hdepth : t.depth = u.depth) : (t.join u).depth = t.depth + 1 := by
  induction t generalizing u with
  | top node => rfl
  | layer nodes above ih =>
    cases u with
    | top node => cases hdepth
    | layer nodes' above' => exact congrArg Nat.succ (ih (Nat.succ.inj hdepth))

theorem leaves_join (hdepth : t.depth = u.depth) : (t.join u).leaves = t.leaves ++ u.leaves := by
  cases t with
  | top node =>
    cases u with
    | top node' => rfl
    | layer nodes' above' => cases hdepth
  | layer nodes above =>
    cases u with
    | top node => cases hdepth
    | layer nodes' above' => rfl

namespace Perfect

theorem join (ht : t.Perfect) (hu : u.Perfect) (hdepth : t.depth = u.depth) :
    (t.join u).Perfect := by
  induction t generalizing u with
  | top node => exact ⟨trivial, rfl, rfl⟩
  | layer nodes above ih =>
    cases u with
    | top node => cases hdepth
    | layer nodes' above' =>
      obtain ⟨habove, hleaves, hlength⟩ := ht
      obtain ⟨habove', hleaves', hlength'⟩ := hu
      have hdepth := Nat.succ.inj hdepth
      refine ⟨ih habove habove' hdepth, ?_, ?_⟩
      · rw [leaves_join hdepth, pairUp_append (by omega), hleaves, hleaves']
      · rw [leafCount, leaves_join hdepth, List.length_append, List.length_append, hlength,
          hlength', Nat.mul_add]
        rfl

theorem leafCount_join (ht : t.Perfect) (hu : u.Perfect) (hdepth : t.depth = u.depth) :
    (t.join u).leafCount = 2 * t.leafCount := by
  rw [(ht.join hu hdepth).leafCount_eq, depth_join hdepth, pow_succ', ht.leafCount_eq]

/-- A path of the first tree goes on to the root of the second. -/
theorem steps_join (ht : t.Perfect) (hdepth : t.depth = u.depth) {index : Nat}
    (hindex : index < t.leafCount) :
    (t.join u).steps index = t.steps index ++ [⟨u.root, false⟩] := by
  induction t generalizing u index with
  | top node =>
    obtain rfl : index = 0 := by simpa [leafCount, leaves] using hindex
    rfl
  | layer nodes above ih =>
    cases u with
    | top node => cases hdepth
    | layer nodes' above' =>
      have heven : nodes.length % 2 = 0 := by
        have hlength := ht.2.2
        omega
      have hstep : step? (nodes ++ nodes') index = step? nodes index :=
        step?_append heven hindex nodes'
      rw [Tree.join, steps_layer, steps_layer, hstep,
        ih ht.1 (Nat.succ.inj hdepth) (ht.half_lt hindex), List.append_assoc]
      rfl

theorem root_eq_doubled (ht : t.Perfect) {node : Node}
    (hleaves : t.leaves = List.replicate t.leafCount node) : t.root = node.doubled t.depth := by
  induction t generalizing node with
  | top leaf => exact List.head_eq_of_cons_eq hleaves
  | layer nodes above ih =>
    obtain ⟨habove, hparents, hlength⟩ := ht
    have hnodes : nodes = List.replicate (2 * above.leafCount) node := by
      rw [← hlength]
      exact hleaves
    -- The parents are equal nodes again, so the induction is over all nodes.
    rw [hnodes, pairUp_replicate] at hparents
    rw [root, ih habove hparents, Node.doubled_combine, depth]

end Perfect

end Join

end Tree

end ClaimTree
