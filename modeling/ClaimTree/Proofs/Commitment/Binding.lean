import ClaimTree.Proofs.Command.Basic
import ClaimTree.Proofs.Commitment.Basic
import ClaimTree.Proofs.Tree.Message
import ClaimTree.Proofs.Tree.Replace

namespace ClaimTree

namespace Commitment

/-- The messages that are hashed to build a commitment: those of the slots, then those of the pairs
from the lowest layer upwards. -/
def messages (k : Commitment) : List (List UInt8) :=
  k.slots.map k.version.hashed ++ k.tree.pairs.map Node.abovePreimage

theorem Sound.digests_messages {k : Commitment} (hk : k.Sound) :
    k.messages.map Node.digest = k.tree.layers.flatten := by
  have hpairs : (k.tree.pairs.map Node.abovePreimage).map Node.digest =
      k.tree.pairs.map Node.above := by
    rw [List.map_map]
    rfl
  have hslots : (k.slots.map k.version.hashed).map Node.digest =
      k.slots.map k.version.claimNode := by
    rw [List.map_map]
    rfl
  rw [messages, List.map_append, hpairs, hslots, hk.perfect.flatten_layers, hk.leaves_eq]

/-- A path that leads to the root starts at a claim with the fields of the slot at its place. -/
theorem Sound.slot_of_fold {k : Commitment} (hk : k.Sound) {version : LeafVersion} {claim : Claim}
    {path : Path} {inputs : List (List UInt8)} (hclaim : version.Accepts claim)
    (hown : k.messages ⊆ inputs) (hpath : path.messages (version.hashed claim) ⊆ inputs)
    (hroot : path.fold (version.claimNode claim) = k.root) :
    (version = k.version ∧ path.length = k.tree.depth ∧ k.tree.steps path.place = path ∧
      ∃ slot, k.slots[path.place]? = some slot ∧ version.SameFields claim slot) ∨
    Collision keccak256 inputs := by
  have hleaves : k.tree.leaves = (k.slots.map k.version.hashed).map Node.digest := by
    rw [hk.leaves_eq, List.map_map]
    rfl
  have hwidths : ∀ m ∈ k.slots.map k.version.hashed, m.length ≠ 64 := by
    intro m hm
    obtain ⟨slot, -, rfl⟩ := List.mem_map.mp hm
    exact k.version.length_hashed_ne slot
  obtain ⟨hslots, hpreimages⟩ := List.append_subset.mp hown
  have hpairs : ∀ pair ∈ k.tree.pairs, Node.abovePreimage pair ∈ inputs := by
    intro pair hpair
    exact hpreimages (List.mem_map_of_mem hpair)
  rcases hk.perfect.message_of_fold hleaves hwidths (version.length_hashed_ne claim) hslots hpairs
    hpath hroot with ⟨hlength, hsteps, hmessage⟩ | hcollision
  · rw [List.getElem?_map] at hmessage
    obtain ⟨slot, hslot, hhashed⟩ := Option.map_eq_some_iff.mp hmessage
    have haccepts := hk.accepts_slot (List.mem_of_getElem? hslot)
    obtain ⟨hversion, hfields⟩ := LeafVersion.eq_of_hashed_eq hclaim haccepts hhashed.symm
    exact .inl ⟨hversion, hlength, hsteps, slot, hslot, hfields⟩
  · exact .inr hcollision

/-- Of two commitments with one root the second has at every place the slot of the first: the path
of the first leads to the root of the second. -/
theorem Sound.slot_of_root_eq {k k' : Commitment} (hk : k.Sound) (hk' : k'.Sound)
    (hroot : k.root = k'.root) {index : Nat} {slot : Claim} (hslot : k.slots[index]? = some slot) :
    (k.version = k'.version ∧ k.tree.depth = k'.tree.depth ∧
      ∃ slot', k'.slots[index]? = some slot' ∧ k.version.SameFields slot slot') ∨
    Collision keccak256 (k.messages ++ k'.messages) := by
  have hleaf := hk.leaf_of_slot hslot
  obtain ⟨hindex, -⟩ := List.getElem?_eq_some_iff.mp hleaf
  have haccepts := hk.accepts_slot (List.mem_of_getElem? hslot)
  have hfold : Path.fold (k.version.claimNode slot) (k.tree.steps index) = k'.root := by
    rw [hk.perfect.fold_steps hleaf, ← hroot, root]
  have hpath : Path.messages (k.version.hashed slot) (k.tree.steps index) ⊆ k.messages := by
    apply List.cons_subset.mpr
    refine ⟨List.mem_append_left _ (List.mem_map_of_mem (List.mem_of_getElem? hslot)), ?_⟩
    exact List.subset_append_of_subset_right _
      (List.map_subset _ (hk.perfect.pairs_steps_subset hleaf))
  rcases hk'.slot_of_fold haccepts (List.subset_append_right _ _)
    (List.subset_append_of_subset_left _ hpath) hfold with
    ⟨hversion, hlength, -, slot', hslot', hfields⟩ | hcollision
  · rw [hk.perfect.length_steps hindex] at hlength
    rw [hk.perfect.place_steps hindex] at hslot'
    exact .inl ⟨hversion, hlength, slot', hslot', hfields⟩
  · exact .inr hcollision

theorem checkRoot_strict (declared computed : Node) :
    (checkRoot declared computed false).result = .ok () ↔ declared = computed := by
  rw [result_checkRoot]
  simp

variable {version version' : LeafVersion} {claims claims' : List Claim} {capacity capacity' : Nat}
  {k k' : Commitment}

/-- No inclusion can be forged: whatever claim and path lead to the root, the claim has the hashed
fields of a slot and the path is the tree's own, or two of the messages hashed collide. -/
theorem slot_of_fold_eq_root (h : commit version claims capacity = .ok k) {other : LeafVersion}
    {claim : Claim} {leaf : Node} {path : Path} (hleaf : other.leaf claim = .ok leaf)
    (hroot : path.fold leaf = k.root) :
    (other = version ∧ path.length = k.tree.depth ∧
      ∃ index < capacity,
        (∀ level (hlevel : level < path.length),
          index.testBit level = path[level].siblingIsLeft) ∧
        k.tree.path index = .ok path ∧
        ∃ slot, (paddedClaims claims capacity)[index]? = some slot ∧
          version.SameFields claim slot) ∨
    Collision keccak256 (k.messages ++ path.messages (other.hashed claim)) := by
  obtain ⟨hk, rfl, rfl, rfl⟩ := commit_eq_ok_iff.mp h
  obtain ⟨haccepts, rfl⟩ := LeafVersion.leaf_eq_ok_iff.mp hleaf
  rcases hk.slot_of_fold haccepts (List.subset_append_left _ _) (List.subset_append_right _ _)
    hroot with ⟨rfl, hlength, hsteps, slot, hslot, hfields⟩ | hcollision
  · have hindex : path.place < k.tree.leafCount := by
      rw [hk.perfect.leafCount_eq, ← hlength]
      exact path.place_lt
    refine .inl ⟨rfl, hlength, path.place, hindex, ?_, ?_, slot, hslot, hfields⟩
    · intro level hlevel
      rw [Path.testBit_place, Path.sides, List.getElem?_map, List.getElem?_eq_getElem hlevel]
      rfl
    · rw [Tree.path_eq_ok hindex, hsteps]
  · exact .inr hcollision

theorem slot_of_fold_eq_root_second_of_two :
    let first : Claim := ⟨none, .zero, .zero⟩
    let second : Claim := ⟨none, .zero, .ofUInt64 1⟩
    let path : Path := [⟨LeafVersion.v1.claimNode first, true⟩]
    ∃ k leaf, commit .v1 [first, second] 2 = .ok k ∧ LeafVersion.v1.leaf second = .ok leaf ∧
      path.fold leaf = k.root ∧
      ((∃ index < 2, index.testBit 0 = true ∧ k.tree.path index = .ok path) ∨
        Collision keccak256 (k.messages ++ path.messages (LeafVersion.v1.hashed second))) := by
  intro first second path
  let nodes := [LeafVersion.v1.claimNode first, LeafVersion.v1.claimNode second]
  have hcommit : commit .v1 [first, second] 2 =
      .ok ⟨.v1, [first, second], .layer nodes (.top (nodes[0].combine nodes[1]))⟩ :=
    commit_eq_ok_iff.mpr
      ⟨⟨⟨trivial, rfl, rfl⟩, by decide, by decide, nofun, rfl⟩, rfl, rfl, rfl⟩
  have hleaf : LeafVersion.v1.leaf second = .ok nodes[1] := rfl
  have hroot : path.fold nodes[1] = nodes[0].combine nodes[1] := rfl
  refine ⟨_, _, hcommit, hleaf, hroot, ?_⟩
  rcases slot_of_fold_eq_root hcommit hleaf hroot with
    ⟨-, -, index, hindex, hsides, hpath, -⟩ | hcollision
  · exact .inl ⟨index, hindex, hsides 0 (by decide), hpath⟩
  · exact .inr hcollision

/-- The root binds the whole batch. A declared root that is found to match is that of the batch, so
it vouches for version, capacity and the hashed fields of all slots. -/
theorem slots_of_root_eq (h : commit version claims capacity = .ok k)
    (h' : commit version' claims' capacity' = .ok k') :
    ((checkRoot k.root k'.root false).result = .ok () ↔ k.root = k'.root) ∧
    (k.root = k'.root →
      (version = version' ∧ capacity = capacity' ∧
        ∀ index < capacity, ∃ slot slot', (paddedClaims claims capacity)[index]? = some slot ∧
          (paddedClaims claims' capacity')[index]? = some slot' ∧ version.SameFields slot slot') ∨
      Collision keccak256 (k.messages ++ k'.messages)) := by
  obtain ⟨hk, rfl, rfl, rfl⟩ := commit_eq_ok_iff.mp h
  obtain ⟨hk', rfl, rfl, rfl⟩ := commit_eq_ok_iff.mp h'
  refine ⟨checkRoot_strict _ _, ?_⟩
  intro hroot
  by_cases hcollision : Collision keccak256 (k.messages ++ k'.messages)
  · exact .inr hcollision
  have hsame : ∀ index < k.tree.leafCount, ∃ slot, k.slots[index]? = some slot ∧
      k.version = k'.version ∧ k.tree.depth = k'.tree.depth ∧
      ∃ slot', k'.slots[index]? = some slot' ∧ k.version.SameFields slot slot' := by
    intro index hindex
    have hslot := List.getElem?_eq_getElem (hk.length_slots.symm ▸ hindex)
    exact ⟨_, hslot, (hk.slot_of_root_eq hk' hroot hslot).resolve_right hcollision⟩
  obtain ⟨-, -, hversion, hdepth, -⟩ := hsame 0 hk.perfect.leafCount_pos
  refine .inl ⟨hversion, ?_, ?_⟩
  · rw [hk.perfect.leafCount_eq, hk'.perfect.leafCount_eq, hdepth]
  · intro index hindex
    obtain ⟨slot, hslot, -, -, slot', hslot', hfields⟩ := hsame index hindex
    exact ⟨slot, slot', hslot, hslot', hfields⟩

theorem slots_of_root_eq_padding_claim :
    ∃ k k', commit .v2 [] 2 = .ok k ∧ commit .v2 [Claim.padding] 2 = .ok k' ∧ k.root = k'.root ∧
      ((∀ index < 2, ∃ slot slot', (paddedClaims [] 2)[index]? = some slot ∧
          (paddedClaims [Claim.padding] 2)[index]? = some slot' ∧
          LeafVersion.v2.SameFields slot slot') ∨
        Collision keccak256 (k.messages ++ k'.messages)) := by
  let node := LeafVersion.v2.claimNode Claim.padding
  let tree : Tree := .layer [node, node] (.top (node.combine node))
  have hempty : commit .v2 [] 2 = .ok ⟨.v2, [], tree⟩ :=
    commit_eq_ok_iff.mpr
      ⟨⟨⟨trivial, rfl, rfl⟩, by decide, by decide, nofun, rfl⟩, rfl, rfl, rfl⟩
  have hpadding : commit .v2 [Claim.padding] 2 = .ok ⟨.v2, [Claim.padding], tree⟩ :=
    commit_eq_ok_iff.mpr
      ⟨⟨⟨trivial, rfl, rfl⟩, by decide, by decide, by simp [LeafVersion.accepts_padding], rfl⟩,
        rfl, rfl, rfl⟩
  refine ⟨_, _, hempty, hpadding, rfl, ?_⟩
  rcases (slots_of_root_eq hempty hpadding).2 rfl with ⟨-, -, hslots⟩ | hcollision
  · exact .inl hslots
  · exact .inr hcollision

end Commitment

end ClaimTree
