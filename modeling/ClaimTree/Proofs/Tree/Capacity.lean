import ClaimTree.Proofs.Capacity
import ClaimTree.Proofs.Orientation
import ClaimTree.Proofs.Tree.Path
import Mathlib.Logic.Function.Iterate

namespace ClaimTree

namespace Tree

variable {nodes : List Node} {level : Nat}

theorem length_iterate_pairUp (nodes : List Node) (layer : Nat) :
    (pairUp^[layer] nodes).length = nodes.length / 2 ^ layer := by
  induction layer with
  | zero => rw [Function.iterate_zero_apply, pow_zero, Nat.div_one]
  | succ layer ih =>
    rw [Function.iterate_succ_apply', length_pairUp, ih, Nat.div_div_eq_div_mul, pow_succ]

/-- A layer of more than one node is paired, unless their number is odd. -/
theorem raise_of_one_lt (hlength : 1 < nodes.length) :
    raise level nodes =
      if nodes.length % 2 = 0 then (raise (level + 1) (pairUp nodes)).map (layer nodes)
      else .error (.unpairedLayer level nodes.length) := by
  match nodes with
  | left :: right :: rest => rw [raise]

/-- The tree cannot be raised beyond the first layer of an odd number of nodes. -/
theorem raise_unpaired (level : Nat) {height size : Nat}
    (hlength : nodes.length = 2 ^ height * size) (hodd : size % 2 = 1) (hone : 1 < size) :
    raise level nodes = .error (.unpairedLayer (level + height) size) := by
  induction height generalizing level nodes with
  | zero =>
    rw [pow_zero, Nat.one_mul] at hlength
    rw [raise_of_one_lt (hlength ▸ hone), if_neg (by omega), hlength, Nat.add_zero]
  | succ height ih =>
    have hpos := Nat.two_pow_pos height
    rw [pow_succ, Nat.mul_right_comm] at hlength
    have hhalf : (pairUp nodes).length = 2 ^ height * size := by
      rw [length_pairUp, hlength]
      omega
    have hmany : 1 < nodes.length := by
      have hle : 1 * size ≤ 2 ^ height * size := Nat.mul_le_mul_right size hpos
      omega
    rw [raise_of_one_lt hmany, if_pos (by omega), ih (level + 1) hhalf, Nat.add_right_comm]
    rfl

/-- Of the layers over these nodes, this is the first with an odd number of nodes, and it has
more than one. -/
structure FirstUnpaired (nodes : List Node) (layer size : Nat) : Prop where
  length_eq : (pairUp^[layer] nodes).length = size
  odd : size % 2 = 1
  one_lt : 1 < size
  even_below : ∀ lower < layer, (pairUp^[lower] nodes).length % 2 = 0

theorem firstUnpaired_of_length {height size : Nat} (hlength : nodes.length = 2 ^ height * size)
    (hodd : size % 2 = 1) (hone : 1 < size) : FirstUnpaired nodes height size := by
  refine ⟨?_, hodd, hone, fun lower hlower => ?_⟩
  · rw [length_iterate_pairUp, hlength, Nat.mul_div_cancel_left _ (Nat.two_pow_pos height)]
  · obtain ⟨rest, rfl⟩ := Nat.exists_eq_add_of_lt hlower
    have hfactors : 2 ^ (lower + rest + 1) * size = 2 ^ lower * (2 ^ rest * size * 2) := by
      rw [Nat.add_assoc, pow_add, pow_succ, Nat.mul_assoc, Nat.mul_right_comm]
    rw [length_iterate_pairUp, hlength, hfactors,
      Nat.mul_div_cancel_left _ (Nat.two_pow_pos lower), Nat.mul_mod_left]

/-- The path of a leaf cannot be written down just when the tree is too deep. -/
theorem Perfect.orientation_eq_error_iff {t : Tree} {index : Nat} {e : TreeError} (ht : t.Perfect)
    (hindex : index < t.leafCount) :
    Path.orientation (t.steps index) = .error e ↔
      Capacity.maxDepth < t.depth ∧ e = .pathTooLong t.depth := by
  rw [Path.orientation, Orientation.ofFlags_eq_error_iff, Path.length_sides,
    ht.length_steps hindex]
  rfl

end Tree

theorem Capacity.check_two_pow_eq_error_iff {claims depth : Nat} {e : TreeError}
    (hle : claims ≤ 2 ^ depth) :
    check claims (2 ^ depth) = .error e ↔ maxDepth < depth ∧ e = .pathTooLong depth := by
  rw [check_two_pow hle]
  split
  · next hdepth => rw [Except.error.injEq, and_iff_right hdepth, eq_comm]
  · next hdepth => exact iff_of_false nofun fun h => hdepth h.1

/-- What is said of a capacity before a leaf is hashed is what comes out over so many leaves: for
a power of two a tree, of which a path can be written down or not, and otherwise the first layer
that cannot be paired. -/
theorem LeafVersion.pad_foretells_ofLeaves (version : LeafVersion) (leaves : List Node)
    {capacity : Nat} (hle : leaves.length ≤ capacity) :
    (capacity = 0 → version.pad leaves capacity = .error .noLeaves ∧
      ∀ full : List Node, full.length = capacity → Tree.ofLeaves full = .error .noLeaves) ∧
    (capacity ≠ 0 → (∀ depth, capacity ≠ 2 ^ depth) → ∃ layer size,
      version.pad leaves capacity = .error (.unpairedLayer layer size) ∧
      ∀ full : List Node, full.length = capacity →
        Tree.ofLeaves full = .error (.unpairedLayer layer size) ∧
          Tree.FirstUnpaired full layer size) ∧
    ∀ depth, capacity = 2 ^ depth → ∀ full : List Node, full.length = capacity →
      ∃ t, Tree.ofLeaves full = .ok t ∧ t.depth = depth ∧ ∀ index < capacity, ∃ path,
        t.path index = .ok path ∧ ∀ e,
          (version.pad leaves capacity = .error e ↔ path.orientation = .error e) ∧
          (path.orientation = .error e → e = .pathTooLong depth) := by
  refine ⟨?_, fun hzero hpow => ?_, ?_⟩
  · rintro rfl
    refine ⟨?_, fun full hfull => ?_⟩
    · rw [pad_eq_error_iff, Nat.le_zero.mp hle]
      rfl
    · rw [List.eq_nil_of_length_eq_zero hfull, Tree.ofLeaves, Tree.raise]
  · have hfactors := Capacity.two_pow_halvings_mul capacity
    have hodd := Capacity.shiftRight_halvings_mod_two hzero
    have hone := Capacity.one_lt_shiftRight_halvings hzero hpow
    refine ⟨_, _, pad_eq_error_iff.mpr (Capacity.check_of_not_two_pow hle hzero hpow),
      fun full hfull => ?_⟩
    have hlength := hfull.trans hfactors.symm
    have hraise := Tree.raise_unpaired 0 hlength hodd hone
    rw [Nat.zero_add] at hraise
    exact ⟨hraise, Tree.firstUnpaired_of_length hlength hodd hone⟩
  · rintro depth rfl full hfull
    obtain ⟨t, ht, rfl⟩ := Tree.exists_perfect depth full hfull
    have hdepth : t.depth = depth := ht.depth_eq hfull
    refine ⟨t, ht.ofLeaves_leaves, hdepth, fun index hindex => ?_⟩
    have hleaf : index < t.leafCount := Nat.lt_of_lt_of_eq hindex hfull.symm
    refine ⟨_, Tree.path_eq_ok hleaf, fun e => ?_⟩
    rw [pad_eq_error_iff, Capacity.check_two_pow_eq_error_iff hle,
      ht.orientation_eq_error_iff hleaf, hdepth]
    exact ⟨Iff.rfl, And.right⟩

theorem LeafVersion.pad_foretells_ofLeaves_twelve :
    (v2.pad [] 12 = .error (.unpairedLayer 2 3) ∧
      Tree.ofLeaves (List.replicate 12 v2.paddingLeaf) = .error (.unpairedLayer 2 3)) ∧
    v2.pad [] (2 ^ 33) = .error (.pathTooLong 33) ∧
      ∃ t path, Tree.ofLeaves (List.replicate (2 ^ 33) v2.paddingLeaf) = .ok t ∧
        t.path 0 = .ok path ∧ path.orientation = .error (.pathTooLong 33) := by
  have hpow : ∀ depth, 12 ≠ 2 ^ depth := by
    intro depth hdepth
    have hlow : depth < 4 := (Nat.pow_lt_pow_iff_right (by decide : 1 < 2)).mp (hdepth ▸ by decide)
    have hsmall : ∀ depth < 4, 12 ≠ 2 ^ depth := by decide
    exact hsmall depth hlow hdepth
  have htwelve : v2.pad [] 12 = .error (.unpairedLayer 2 3) := by cbv
  have hdeep : v2.pad [] (2 ^ 33) = .error (.pathTooLong 33) :=
    pad_eq_error_iff.mpr (Capacity.check_two_pow (Nat.zero_le _))
  refine ⟨⟨htwelve, ?_⟩, hdeep, ?_⟩
  · obtain ⟨layer, size, hpad, hfull⟩ :=
      (pad_foretells_ofLeaves v2 [] (Nat.zero_le 12)).2.1 (by decide) hpow
    rw [htwelve] at hpad
    rw [Except.error.inj hpad]
    exact (hfull _ List.length_replicate).1
  · obtain ⟨t, ht, -, hpath⟩ := (pad_foretells_ofLeaves v2 [] (Nat.zero_le _)).2.2 33 rfl _
      (List.length_replicate (a := v2.paddingLeaf))
    obtain ⟨path, hpath, hanswer⟩ := hpath 0 (Nat.two_pow_pos 33)
    exact ⟨t, path, ht, hpath, (hanswer _).1.mp hdeep⟩

end ClaimTree
