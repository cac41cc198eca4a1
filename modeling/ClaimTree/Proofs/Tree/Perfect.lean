import ClaimTree.Proofs.Digest
import ClaimTree.Tree.Basic

namespace ClaimTree.Tree

/-- Every two neighbours of a layer; a node without a partner is left out. -/
def neighbours : List Node → List (Node × Node)
  | left :: right :: rest => (left, right) :: neighbours rest
  | _ => []

theorem pairUp_eq (nodes : List Node) : pairUp nodes = (neighbours nodes).map Node.above := by
  fun_induction neighbours nodes with
  | case1 left right rest ih => rw [pairUp, ih]; rfl
  | case2 nodes short => rw [pairUp]; rfl; exact short

theorem getElem?_neighbours {nodes : List Node} {place : Nat} {left right : Node} :
    (neighbours nodes)[place]? = some (left, right) ↔
      nodes[2 * place]? = some left ∧ nodes[2 * place + 1]? = some right := by
  fun_induction neighbours nodes generalizing place with
  | case1 first second rest ih =>
    cases place with
    | zero => simp
    | succ place => simpa [Nat.mul_add] using ih
  | case2 nodes short =>
    match nodes with
    | [] => simp
    | [_] => simp
    | first :: second :: rest => exact absurd rfl (short first second rest)

theorem exists_layers_eq (t : Tree) :
    ∃ lower, t.layers = lower ++ [[t.root]] ∧ lower.length = t.depth := by
  induction t with
  | top node => exact ⟨[], rfl, rfl⟩
  | layer nodes above ih =>
    obtain ⟨lower, hlayers, hlength⟩ := ih
    refine ⟨nodes :: lower, ?_, congrArg Nat.succ hlength⟩
    rw [layers, hlayers]
    rfl

def Perfect : Tree → Prop
  | top _ => True
  | layer nodes above =>
    above.Perfect ∧ above.leaves = pairUp nodes ∧ nodes.length = 2 * above.leafCount

namespace Perfect

theorem leafCount_eq {t : Tree} (ht : t.Perfect) : t.leafCount = 2 ^ t.depth := by
  induction t with
  | top node => rfl
  | layer nodes above ih =>
    obtain ⟨habove, -, hlength⟩ := ht
    calc nodes.length = 2 * above.leafCount := hlength
      _ = 2 * 2 ^ above.depth := by rw [ih habove]
      _ = 2 ^ (above.depth + 1) := by rw [pow_succ, Nat.mul_comm]

theorem depth_eq {t : Tree} (ht : t.Perfect) {depth : Nat} (hcount : t.leafCount = 2 ^ depth) :
    t.depth = depth :=
  (Nat.pow_right_inj (by decide)).mp (ht.leafCount_eq.symm.trans hcount)

theorem leafCount_lt_size {t : Tree} (ht : t.Perfect) (hdepth : t.depth ≤ 32) :
    t.leafCount < UInt64.size := by
  rw [ht.leafCount_eq]
  calc 2 ^ t.depth ≤ 2 ^ 32 := Nat.pow_le_pow_right (by decide) hdepth
    _ < UInt64.size := by decide

theorem leafCount_pos {t : Tree} (ht : t.Perfect) : 0 < t.leafCount := by
  rw [ht.leafCount_eq]
  exact Nat.two_pow_pos _

theorem raise_leaves {t : Tree} (ht : t.Perfect) (level : Nat) : raise level t.leaves = .ok t := by
  induction t generalizing level with
  | top node => rw [leaves, raise]
  | layer nodes above ih =>
    obtain ⟨habove, hleaves, hlength⟩ := ht
    have hpos := habove.leafCount_pos
    obtain ⟨left, right, rest, rfl⟩ : ∃ left right rest, nodes = left :: right :: rest := by
      cases nodes with
      | nil => rw [List.length_nil] at hlength; omega
      | cons left rest =>
        cases rest with
        | nil => rw [List.length_singleton] at hlength; omega
        | cons right rest => exact ⟨left, right, rest, rfl⟩
    have heven : (left :: right :: rest).length % 2 = 0 := by omega
    rw [leaves, raise, if_pos heven, ← hleaves, ih habove]
    rfl

end Perfect

theorem perfect_of_raise {level : Nat} {nodes : List Node} {t : Tree}
    (h : raise level nodes = .ok t) : t.Perfect ∧ t.leaves = nodes := by
  fun_induction raise level nodes generalizing t with
  | case1 level => cases h
  | case2 level node =>
    cases h
    exact ⟨trivial, rfl⟩
  | case3 level left right rest nodes heven =>
    rename_i ih
    cases hr : raise (level + 1) (pairUp nodes) with
    | error e => rw [hr] at h; cases h
    | ok above =>
      rw [hr] at h
      cases h
      obtain ⟨habove, hleaves⟩ := ih hr
      refine ⟨⟨habove, hleaves, ?_⟩, rfl⟩
      have hcount : above.leafCount = nodes.length / 2 := by
        rw [leafCount, hleaves, length_pairUp]
      omega
  | case4 level left right rest nodes => cases h

/-- The trees over lists of leaves are the perfect ones. -/
theorem ofLeaves_eq_ok_iff {leaves : List Node} {t : Tree} :
    ofLeaves leaves = .ok t ↔ t.Perfect ∧ t.leaves = leaves := by
  constructor
  · exact perfect_of_raise
  · rintro ⟨ht, rfl⟩
    exact ht.raise_leaves 0

theorem Perfect.ofLeaves_leaves {t : Tree} (ht : t.Perfect) : ofLeaves t.leaves = .ok t :=
  ofLeaves_eq_ok_iff.mpr ⟨ht, rfl⟩

theorem exists_perfect (depth : Nat) (leaves : List Node) (hlength : leaves.length = 2 ^ depth) :
    ∃ t : Tree, t.Perfect ∧ t.leaves = leaves := by
  induction depth generalizing leaves with
  | zero =>
    obtain ⟨node, rfl⟩ := List.length_eq_one_iff.mp hlength
    exact ⟨top node, trivial, rfl⟩
  | succ depth ih =>
    rw [pow_succ] at hlength
    obtain ⟨above, habove, hleaves⟩ := ih (pairUp leaves) (by rw [length_pairUp]; omega)
    refine ⟨layer leaves above, ⟨habove, hleaves, ?_⟩, rfl⟩
    have hcount : above.leafCount = leaves.length / 2 := by
      rw [leafCount, hleaves, length_pairUp]
    omega

end ClaimTree.Tree
