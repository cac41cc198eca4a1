import ClaimTree.Capacity
import ClaimTree.Proofs.Except
import ClaimTree.Proofs.Leaf
import Mathlib.Tactic.SplitIfs

namespace ClaimTree

namespace Capacity

theorem two_pow_halvings_mul (n : Nat) : 2 ^ halvings n * (n >>> halvings n) = n := by
  fun_induction halvings n with
  | case1 n h ih =>
    calc 2 ^ (halvings (n / 2) + 1) * (n >>> (halvings (n / 2) + 1))
        = 2 * (2 ^ halvings (n / 2) * ((n / 2) >>> halvings (n / 2))) := by
          rw [Nat.shiftRight_succ_inside, pow_succ, Nat.mul_comm _ 2, Nat.mul_assoc]
      _ = n := by rw [ih]; omega
  | case2 n h => simp

theorem halvings_two_pow (depth : Nat) : halvings (2 ^ depth) = depth := by
  induction depth with
  | zero => rw [halvings, if_neg (by decide)]
  | succ depth ih =>
    have hpos := Nat.two_pow_pos depth
    have hhalf : 2 ^ (depth + 1) / 2 = 2 ^ depth := by
      rw [pow_succ]
      omega
    rw [halvings, if_pos (by rw [pow_succ]; omega), hhalf, ih]

theorem shiftRight_halvings_two_pow (depth : Nat) : 2 ^ depth >>> halvings (2 ^ depth) = 1 := by
  rw [halvings_two_pow, Nat.shiftRight_eq_div_pow, Nat.div_self (Nat.two_pow_pos depth)]

theorem eq_two_pow_halvings {n : Nat} (htop : n >>> halvings n = 1) : n = 2 ^ halvings n := by
  have hfactors := two_pow_halvings_mul n
  rw [htop, Nat.mul_one] at hfactors
  exact hfactors.symm

/-- What is left of a number halved as often as possible is odd. -/
theorem shiftRight_halvings_mod_two {n : Nat} (hn : n ≠ 0) : (n >>> halvings n) % 2 = 1 := by
  fun_induction halvings n with
  | case1 n h ih =>
    rw [Nat.shiftRight_succ_inside]
    exact ih (by omega)
  | case2 n h =>
    rw [Nat.shiftRight_zero]
    omega

theorem one_lt_shiftRight_halvings {n : Nat} (hn : n ≠ 0) (hpow : ∀ depth, n ≠ 2 ^ depth) :
    1 < n >>> halvings n := by
  have hodd := shiftRight_halvings_mod_two hn
  have htop : n >>> halvings n ≠ 1 := fun htop => hpow _ (eq_two_pow_halvings htop)
  generalize n >>> halvings n = top at hodd htop
  omega

/-- A number is halved until its lowest bit that is set comes to the end. -/
theorem halvings_eq_iff {n zeros : Nat} (hn : n ≠ 0) :
    halvings n = zeros ↔ n.testBit zeros = true ∧ ∀ lower < zeros, n.testBit lower = false := by
  have hset : n.testBit (halvings n) = true := by
    rw [Nat.testBit_eq_decide_div_mod_eq, ← Nat.shiftRight_eq_div_pow,
      shiftRight_halvings_mod_two hn, decide_eq_true rfl]
  have hclear : ∀ lower < halvings n, n.testBit lower = false := by
    intro lower hlower
    rw [← two_pow_halvings_mul n, Nat.testBit_two_pow_mul, decide_eq_false (Nat.not_le.mpr hlower),
      Bool.false_and]
  constructor
  · rintro rfl
    exact ⟨hset, hclear⟩
  · rintro ⟨hset', hclear'⟩
    rcases Nat.lt_trichotomy (halvings n) zeros with hlt | heq | hgt
    · exact absurd hset (by rw [hclear' _ hlt]; exact Bool.false_ne_true)
    · exact heq
    · exact absurd hset' (by rw [hclear _ hgt]; exact Bool.false_ne_true)

variable {claims capacity : Nat}

theorem check_of_not_two_pow (hle : claims ≤ capacity) (hzero : capacity ≠ 0)
    (hpow : ∀ depth, capacity ≠ 2 ^ depth) :
    check claims capacity =
      .error (.unpairedLayer (halvings capacity) (capacity >>> halvings capacity)) := by
  simp only [check]
  rw [if_neg (Nat.not_lt.mpr hle), if_neg hzero,
    if_pos (Nat.ne_of_gt (one_lt_shiftRight_halvings hzero hpow))]

theorem check_two_pow {depth : Nat} (hle : claims ≤ 2 ^ depth) :
    check claims (2 ^ depth) =
      if maxDepth < depth then .error (.pathTooLong depth) else .ok () := by
  simp only [check, shiftRight_halvings_two_pow]
  rw [if_neg (Nat.not_lt.mpr hle), if_neg (Nat.ne_of_gt (Nat.two_pow_pos depth)),
    if_neg (by decide), halvings_two_pow]

theorem check_eq_ok_iff :
    check claims capacity = .ok () ↔
      claims ≤ capacity ∧ ∃ depth ≤ maxDepth, capacity = 2 ^ depth := by
  constructor
  · intro h
    simp only [check] at h
    split_ifs at h with hsmall hzero htop hdepth
    exact ⟨Nat.le_of_not_lt hsmall, halvings capacity, Nat.le_of_not_lt hdepth,
      eq_two_pow_halvings (Decidable.not_not.mp htop)⟩
  · rintro ⟨hle, depth, hdepth, rfl⟩
    rw [check_two_pow hle, if_neg (Nat.not_lt.mpr hdepth)]

/-- The first thing that is wrong with a capacity for so many claims. -/
inductive Fault (claims capacity : Nat) : TreeError → Prop
  | tooSmall : capacity < claims → Fault claims capacity (.capacityTooSmall claims capacity)
  | noLeaves : claims ≤ capacity → capacity = 0 → Fault claims capacity .noLeaves
  /-- The capacity ends in so many zero bits, and what is left without them is odd. -/
  | unpaired {zeros : Nat} : claims ≤ capacity → capacity ≠ 0 → (∀ depth, capacity ≠ 2 ^ depth) →
    capacity.testBit zeros = true → (∀ lower < zeros, capacity.testBit lower = false) →
    Fault claims capacity (.unpairedLayer zeros (capacity >>> zeros))
  | tooDeep {depth : Nat} : claims ≤ capacity → capacity = 2 ^ depth → 32 < depth →
    Fault claims capacity (.pathTooLong depth)

theorem check_eq_error_iff {e : TreeError} :
    check claims capacity = .error e ↔ Fault claims capacity e := by
  constructor
  · intro h
    simp only [check] at h
    split_ifs at h with hsmall hzero htop hdepth <;> obtain rfl := Except.error.inj h
    · exact .tooSmall hsmall
    · exact .noLeaves (Nat.le_of_not_lt hsmall) hzero
    · obtain ⟨hset, hclear⟩ := (halvings_eq_iff hzero).mp rfl
      refine .unpaired (Nat.le_of_not_lt hsmall) hzero ?_ hset hclear
      rintro depth rfl
      exact htop (shiftRight_halvings_two_pow depth)
    · exact .tooDeep (Nat.le_of_not_lt hsmall) (eq_two_pow_halvings (Decidable.not_not.mp htop))
        hdepth
  · intro h
    cases h with
    | tooSmall hsmall =>
      simp only [check]
      rw [if_pos hsmall]
    | noLeaves hle hzero =>
      simp only [check]
      rw [if_neg (Nat.not_lt.mpr hle), if_pos hzero]
    | unpaired hle hzero hpow hset hclear =>
      rw [check_of_not_two_pow hle hzero hpow, (halvings_eq_iff hzero).mpr ⟨hset, hclear⟩]
    | tooDeep hle hcapacity hdepth =>
      subst hcapacity
      rw [check_two_pow hle]
      exact if_pos hdepth

end Capacity

/-- The claims in their slots, with the padding claim in every slot behind them. -/
def paddedClaims (claims : List Claim) (capacity : Nat) : List Claim :=
  claims ++ List.replicate (capacity - claims.length) Claim.padding

theorem length_paddedClaims {claims : List Claim} {capacity : Nat} (h : claims.length ≤ capacity) :
    (paddedClaims claims capacity).length = capacity := by
  rw [paddedClaims, List.length_append, List.length_replicate]
  omega

namespace LeafVersion

variable {version : LeafVersion} {claims : List Claim}

theorem accepts_of_mem_paddedClaims {capacity : Nat} (h : ∀ claim ∈ claims, version.Accepts claim) :
    ∀ claim ∈ paddedClaims claims capacity, version.Accepts claim := by
  intro claim hclaim
  rcases List.mem_append.mp hclaim with hreal | hpadding
  · exact h claim hreal
  · rw [List.eq_of_mem_replicate hpadding]
    exact version.accepts_padding

theorem pad_eq_error_iff {leaves : List Node} {capacity : Nat} {e : TreeError} :
    version.pad leaves capacity = .error e ↔
      Capacity.check leaves.length capacity = .error e := by
  rw [pad]
  cases Capacity.check leaves.length capacity with
  | error e' =>
    change Except.error e' = _ ↔ _
    rw [Except.error.injEq, Except.error.injEq]
  | ok => exact iff_of_false nofun nofun

theorem leavesFrom_eq_ok_iff {start : Nat} {leaves : List Node} :
    version.leavesFrom start claims = .ok leaves ↔
      (∀ claim ∈ claims, version.Accepts claim) ∧ claims.map version.claimNode = leaves := by
  induction claims generalizing start leaves with
  | nil => simp [leavesFrom]
  | cons claim claims ih =>
    simp only [leavesFrom, bind_eq_ok_iff, mapError_eq_ok_iff, leaf_eq_ok_iff, ih]
    constructor
    · rintro ⟨_, ⟨hclaim, rfl⟩, _, ⟨hclaims, rfl⟩, hleaves⟩
      exact ⟨List.forall_mem_cons.mpr ⟨hclaim, hclaims⟩, Except.ok.inj hleaves⟩
    · rintro ⟨hall, rfl⟩
      obtain ⟨hclaim, hclaims⟩ := List.forall_mem_cons.mp hall
      exact ⟨_, ⟨hclaim, rfl⟩, _, ⟨hclaims, rfl⟩, rfl⟩

theorem leavesFrom_eq_readFrom (start : Nat) (claims : List Claim) :
    version.leavesFrom start claims = readFrom version.leaf .invalidClaim start claims := by
  induction claims generalizing start with
  | nil => rfl
  | cons claim claims ih => rw [leavesFrom, readFrom, ih]

/-- Claims are hashed up to the first one that the layout does not accept. -/
theorem leavesFrom_eq_error_iff {start : Nat} {e : TreeError} :
    version.leavesFrom start claims = .error e ↔
      ∃ before claim after, claims = before ++ claim :: after ∧
        (∀ earlier ∈ before, version.Accepts earlier) ∧ ¬version.Accepts claim ∧
        e = .invalidClaim (start + before.length) .missingGrant := by
  rw [leavesFrom_eq_readFrom, readFrom_eq_error_iff]
  constructor
  · rintro ⟨before, claim, after, cause, hsplit, hbefore, hcause, rfl⟩
    obtain ⟨hclaim, rfl⟩ := leaf_eq_error_iff.mp hcause
    refine ⟨before, claim, after, hsplit, fun earlier hearlier => ?_, hclaim, rfl⟩
    obtain ⟨leaf, hleaf⟩ := hbefore earlier hearlier
    exact (leaf_eq_ok_iff.mp hleaf).1
  · rintro ⟨before, claim, after, hsplit, hbefore, hclaim, rfl⟩
    exact ⟨before, claim, after, _, hsplit,
      fun earlier hearlier => ⟨_, leaf_of_accepts (hbefore earlier hearlier)⟩,
      leaf_eq_error_iff.mpr ⟨hclaim, rfl⟩, rfl⟩

theorem paddedLeaves_eq_ok_iff {capacity : Nat} {leaves : List Node} :
    version.paddedLeaves claims capacity = .ok leaves ↔
      Capacity.check claims.length capacity = .ok () ∧
      (∀ claim ∈ claims, version.Accepts claim) ∧
      (paddedClaims claims capacity).map version.claimNode = leaves := by
  have hslots : (paddedClaims claims capacity).map version.claimNode =
      claims.map version.claimNode ++
        List.replicate (capacity - claims.length) version.paddingLeaf := by
    rw [paddedClaims, List.map_append, List.map_replicate, paddingLeaf_eq]
  simp only [paddedLeaves, pad, bind_eq_ok_iff, leavesFrom_eq_ok_iff]
  constructor
  · rintro ⟨_, hcheck, _, ⟨hclaims, rfl⟩, _, _, hleaves⟩
    rw [List.length_map] at hleaves
    exact ⟨hcheck, hclaims, hslots.trans (Except.ok.inj hleaves)⟩
  · rintro ⟨hcheck, hclaims, rfl⟩
    refine ⟨(), hcheck, _, ⟨hclaims, rfl⟩, (), ?_, ?_⟩
    · rwa [List.length_map]
    · rw [List.length_map, hslots]
      rfl

end LeafVersion

end ClaimTree
