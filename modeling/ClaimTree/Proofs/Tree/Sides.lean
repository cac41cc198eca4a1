import ClaimTree.Proofs.Record.Basic
import Mathlib.Data.Nat.Bitwise

namespace ClaimTree

/-- The number whose binary digits are these bytes, the lowest one first. -/
def Orientation.place (o : Orientation) : Nat :=
  o.bytes.toList.foldr (fun byte place => byte.toNat + 2 * place) 0

theorem Path.place_of_orientation {path : Path} {o : Orientation} (h : path.orientation = .ok o) :
    o.place = path.place := by
  obtain ⟨-, hbytes⟩ := Orientation.toList_of_ofFlags h
  have hrest (n : Nat) :
      (List.replicate n (0 : UInt8)).foldr (fun byte place => byte.toNat + 2 * place) 0 = 0 := by
    induction n with
    | zero => rfl
    | succ n ih => rw [List.replicate_succ, List.foldr_cons, ih]; rfl
  rw [Orientation.place, hbytes, List.foldr_append, hrest, List.foldr_map]
  clear h hbytes
  induction path with
  | nil => rfl
  | cons step rest ih =>
    rw [sides, List.map_cons, List.foldr_cons, place, ← ih]
    cases step.siblingIsLeft <;> rfl

namespace Tree

theorem siblingPlace_eq_xor (index : Nat) :
    (if index % 2 == 1 then index - 1 else index + 1) = index ^^^ 1 := by
  rcases Nat.mod_two_eq_zero_or_one index with heven | hodd
  · rw [if_neg (by simp [heven]), Nat.xor_one_of_even (Nat.even_iff.mpr heven)]
  · rw [if_pos (by simp [hodd]), Nat.xor_one_of_odd (Nat.odd_iff.mpr hodd)]

variable {t : Tree} {index : Nat}

theorem Perfect.getElem?_steps {level : Nat} (ht : t.Perfect)
    (hindex : index < t.leafCount) (hlevel : level < t.depth) :
    ∃ step nodes, (t.steps index)[level]? = some step ∧ t.layers[level]? = some nodes ∧
      nodes.length ≤ t.leafCount ∧ nodes[(index / 2 ^ level) ^^^ 1]? = some step.sibling ∧
      step.siblingIsLeft = index.testBit level := by
  induction t generalizing index level with
  | top node => cases hlevel
  | layer nodes above ih =>
    obtain ⟨step, hstep, hsteps⟩ := ht.exists_steps_eq hindex
    rw [hsteps]
    cases level with
    | zero =>
      refine ⟨step, nodes, rfl, rfl, Nat.le_refl _, ?_, ?_⟩
      · rw [pow_zero, Nat.div_one, ← siblingPlace_eq_xor]
        obtain ⟨sibling, hsibling, rfl⟩ := Option.map_eq_some_iff.mp hstep
        exact hsibling
      · rw [siblingIsLeft_of_step? hstep, Nat.testBit_zero]
        rfl
    | succ level =>
      -- One level up the node stands at half the index, whose bits are those of the index shifted.
      obtain ⟨upper, layer, hupper, hlayer, hcount, hsibling, hside⟩ :=
        ih ht.1 (ht.half_lt hindex) (Nat.lt_of_succ_lt_succ hlevel)
      refine ⟨upper, layer, hupper, hlayer, ?_, ?_, ?_⟩
      · have hlength := ht.2.2
        change _ ≤ nodes.length
        omega
      · rwa [pow_succ', ← Nat.div_div_eq_div_mul]
      · rwa [Nat.testBit_succ]

/-- The sibling stands in the layer, so a step aside neither falls below 0 nor leaves the layer. -/
theorem beside_lt {level length : Nat} (hsibling : (index / 2 ^ level) ^^^ 1 < length) :
    if index.testBit level then 0 < index / 2 ^ level else index / 2 ^ level + 1 < length := by
  rw [Nat.testBit_eq_decide_div_mod_eq]
  generalize index / 2 ^ level = place at hsibling ⊢
  rcases Nat.mod_two_eq_zero_or_one place with heven | hodd
  · rw [if_neg (by simp [heven])]
    rwa [Nat.xor_one_of_even (Nat.even_iff.mpr heven)] at hsibling
  · rw [if_pos (by simp [hodd])]
    omega

theorem Perfect.exists_orientation (ht : t.Perfect) (hdepth : t.depth ≤ 32)
    (hindex : index < t.leafCount) :
    ∃ o, Path.orientation (t.steps index) = .ok o ∧ o.place = index ∧
      ∀ level < 32, o.bytes.toList[level]? =
        some (if level < t.depth ∧ index.testBit level then 1 else 0) := by
  have hlength : (Path.sides (t.steps index)).length = t.depth := by
    rw [Path.length_sides, ht.length_steps hindex]
  obtain ⟨o, ho, -⟩ := Orientation.exists_ofFlags (hlength.trans_le hdepth)
  refine ⟨o, ho, (Path.place_of_orientation ho).trans (ht.place_steps hindex), ?_⟩
  intro level hlevel
  rw [Orientation.getElem?_of_ofFlags ho hlevel, ← Path.testBit_place, ht.place_steps hindex]
  by_cases hbelow : level < t.depth
  · simp only [hbelow, true_and]
  · -- The index is below two to the depth, so its bits end there.
    have hhigh : index < 2 ^ level := by
      calc index < t.leafCount := hindex
        _ = 2 ^ t.depth := ht.leafCount_eq
        _ ≤ 2 ^ level := Nat.pow_le_pow_right (by decide) (Nat.le_of_not_lt hbelow)
    simp [Nat.testBit_lt_two_pow hhigh]

theorem Perfect.place_of_orientation {path : Path} {o : Orientation} (ht : t.Perfect)
    (hpath : t.path index = .ok path) (ho : path.orientation = .ok o) : o.place = index := by
  obtain ⟨hindex, rfl⟩ := path_eq_ok_iff.mp hpath
  exact (Path.place_of_orientation ho).trans (ht.place_steps hindex)

variable {claim : Claim} {version : LeafVersion} {record : ClaimRecord}

theorem Perfect.place_of_record (ht : t.Perfect)
    (h : t.record claim index version = .ok record) :
    record.orientation.place = index ∧ record.leafIndex.toNat = index := by
  obtain ⟨-, hleaf, orientation, ho, rfl⟩ := record_eq_ok_iff.mp h
  obtain ⟨hindex, -⟩ := List.getElem?_eq_some_iff.mp hleaf
  have hdepth : t.depth ≤ 32 := by
    rw [← ht.length_steps hindex, ← Path.length_sides]
    exact (Orientation.toList_of_ofFlags ho).1
  have hsize : index < UInt64.size := hindex.trans (ht.leafCount_lt_size hdepth)
  exact ⟨ht.place_of_orientation (path_eq_ok hindex) ho, UInt64.toNat_ofNat_of_lt' hsize⟩

/-- In any tree over leaves a path is missing only beyond the last leaf. Every other one has a step
for each layer below the root, whose sibling stands beside the node above the leaf and whose side is
a bit of the index. So up to 32 levels the packed sides are the index itself in binary: the leaf
number that a record gives can be read from them, and no two leaves have the same ones. -/
theorem path_shape {leaves : List Node} (h : ofLeaves leaves = .ok t) :
    (∀ index e, t.path index = .error e ↔
      t.leafCount ≤ index ∧ e = .indexOutOfRange index t.leafCount) ∧
    (∀ index < t.leafCount, ∃ path : Path, t.path index = .ok path ∧ path.length = t.depth ∧
      ∀ level (hlevel : level < path.length), ∃ nodes, t.layers[level]? = some nodes ∧
        nodes.length ≤ t.leafCount ∧
        nodes[(index / 2 ^ level) ^^^ 1]? = some path[level].sibling ∧
        path[level].siblingIsLeft = index.testBit level ∧
        if index.testBit level then 0 < index / 2 ^ level
        else index / 2 ^ level + 1 < nodes.length) ∧
    (t.depth ≤ 32 → ∀ index < t.leafCount, ∃ path o, t.path index = .ok path ∧
      path.orientation = .ok o ∧ o.place = index ∧
      ∀ level < 32, o.bytes.toList[level]? =
        some (if level < t.depth ∧ index.testBit level then 1 else 0)) ∧
    (∀ index other path path' o, t.path index = .ok path → t.path other = .ok path' →
      path.orientation = .ok o → path'.orientation = .ok o → index = other) ∧
    ∀ claim index version record, t.record claim index version = .ok record →
      record.orientation.place = index ∧ record.leafIndex.toNat = index := by
  obtain ⟨ht, -⟩ := ofLeaves_eq_ok_iff.mp h
  refine ⟨fun _ _ => path_eq_error_iff, ?_, ?_, ?_, fun _ _ _ _ => ht.place_of_record⟩
  · intro index hindex
    refine ⟨t.steps index, path_eq_ok hindex, ht.length_steps hindex, fun level hlevel => ?_⟩
    obtain ⟨step, nodes, hstep, hnodes, hcount, hsibling, hside⟩ :=
      ht.getElem?_steps hindex (ht.length_steps hindex ▸ hlevel)
    obtain ⟨_, rfl⟩ := List.getElem?_eq_some_iff.mp hstep
    obtain ⟨hbeside, -⟩ := List.getElem?_eq_some_iff.mp hsibling
    exact ⟨nodes, hnodes, hcount, hsibling, hside, beside_lt hbeside⟩
  · intro hdepth index hindex
    obtain ⟨o, ho, hplace, hbytes⟩ := ht.exists_orientation hdepth hindex
    exact ⟨t.steps index, o, path_eq_ok hindex, ho, hplace, hbytes⟩
  · intro index other path path' o hpath hpath' ho ho'
    rw [← ht.place_of_orientation hpath ho, ht.place_of_orientation hpath' ho']

theorem path_shape_third_of_four :
    let leaves := [1, 2, 3, 4].map fun n => Node.ofUint256 (.ofUInt64 n)
    ∃ t : Tree, ofLeaves leaves = .ok t ∧ ∃ path o, t.path 2 = .ok path ∧
      path.length = 2 ∧ path.orientation = .ok o ∧ o.place = 2 ∧
      o.bytes.toList[0]? = some 0 ∧ o.bytes.toList[1]? = some 1 ∧ o.bytes.toList[31]? = some 0 ∧
      path[0]?.map (·.sibling) = leaves[3]? ∧ t.path 4 = .error (.indexOutOfRange 4 4) := by
  intro leaves
  obtain ⟨t, ht, hleaves⟩ := exists_perfect 2 leaves rfl
  have hcount : t.leafCount = 4 := congrArg List.length hleaves
  have hdepth : t.depth = 2 := ht.depth_eq hcount
  have htree : ofLeaves leaves = .ok t := ofLeaves_eq_ok_iff.mpr ⟨ht, hleaves⟩
  obtain ⟨herror, hsteps, hpacked, -⟩ := path_shape htree
  obtain ⟨path, hpath, hlength, hlevels⟩ := hsteps 2 (by rw [hcount]; decide)
  obtain ⟨_, o, hpath', ho, hplace, hbytes⟩ :=
    hpacked (by rw [hdepth]; decide) 2 (by rw [hcount]; decide)
  obtain rfl := Except.ok.inj (hpath.symm.trans hpath')
  rw [hdepth] at hlength hbytes
  have hzero : 0 < path.length := by rw [hlength]; decide
  obtain ⟨nodes, hnodes, -, hsibling, -⟩ := hlevels 0 hzero
  have hlowest : t.layers[0]? = some leaves := by
    cases t with
    | top node => cases hdepth
    | layer nodes above => exact congrArg some hleaves
  obtain rfl := Option.some.inj (hnodes.symm.trans hlowest)
  refine ⟨t, htree, path, o, hpath, hlength, ho, hplace, hbytes 0 (by decide),
    hbytes 1 (by decide), hbytes 31 (by decide), ?_, ?_⟩
  · rw [List.getElem?_eq_getElem hzero, Option.map_some, ← hsibling]
    rfl
  · rw [herror, hcount]
    exact ⟨Nat.le_refl _, rfl⟩

end Tree

end ClaimTree
