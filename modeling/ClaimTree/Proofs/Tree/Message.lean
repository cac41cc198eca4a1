import ClaimTree.Proofs.Tree.Binding

namespace ClaimTree

/-- The messages that are hashed to fold a path from the leaf with a message. -/
def Path.messages (message : List UInt8) (path : Path) : List (List UInt8) :=
  message :: (path.pairs (Node.digest message)).map Node.abovePreimage

/-- The digests of these messages are the nodes that a fold passes. -/
theorem Path.digests_messages (message : List UInt8) (path : Path) :
    (path.messages message).map Node.digest =
      path.scanl (fun node step => step.parent node) (Node.digest message) := by
  suffices h : ∀ node, node :: (path.pairs node).map Node.above =
      path.scanl (fun node step => step.parent node) node by
    rw [Path.messages, List.map_cons, List.map_map]
    exact h (Node.digest message)
  induction path with
  | nil => exact fun node => rfl
  | cons step rest ih =>
    intro node
    rw [List.scanl_cons, ← ih]
    rfl

theorem Path.preimage_mem_messages {message : List UInt8} {path : Path} {pair : Node × Node}
    (hpair : pair ∈ path.pairs (Node.digest message)) :
    Node.abovePreimage pair ∈ path.messages message :=
  List.mem_cons_of_mem _ (List.mem_map_of_mem hpair)

namespace Tree.Perfect

variable {t : Tree} {leafMessages inputs : List (List UInt8)} {message : List UInt8} {path : Path}

theorem collision_of_short (ht : t.Perfect) (hwidth : message.length ≠ 64)
    (htree : ∀ pair ∈ t.pairs, Node.abovePreimage pair ∈ inputs)
    (hpath : path.messages message ⊆ inputs) (hshort : path.length < t.depth)
    (hroot : path.fold (Node.digest message) = t.root) : Collision keccak256 inputs := by
  -- The path is that of an upper part of the tree, so it starts at the parent of a pair.
  have hlength : path.length = (t.ascend (t.depth - path.length)).depth := by
    rw [depth_ascend]
    omega
  rw [← t.root_ascend (t.depth - path.length)] at hroot
  rcases (ht.ascend _).steps_of_fold hlength hroot with ⟨hnode, -⟩ | hcollision
  · obtain ⟨pair, hpair, habove⟩ := ht.exists_pair_of_ascend (Nat.sub_pos_of_lt hshort)
      (Nat.sub_le _ _) (List.mem_of_getElem? hnode)
    have hlengths : (Node.abovePreimage pair).length ≠ message.length := by
      rw [Node.length_abovePreimage]
      exact hwidth.symm
    exact Node.collision_of_lengths (htree pair hpair) (hpath List.mem_cons_self) hlengths habove
  · apply Node.collision_of_pairs hcollision
    · intro pair hpair
      exact htree pair (t.pairs_ascend_subset _ hpair)
    · intro pair hpair
      exact hpath (Path.preimage_mem_messages hpair)

theorem collision_of_long (ht : t.Perfect) (hleaves : t.leaves = leafMessages.map Node.digest)
    (hwidths : ∀ m ∈ leafMessages, m.length ≠ 64) (hleaf : leafMessages ⊆ inputs)
    (htree : ∀ pair ∈ t.pairs, Node.abovePreimage pair ∈ inputs)
    (hpath : path.messages message ⊆ inputs) (hlong : t.depth < path.length)
    (hroot : path.fold (Node.digest message) = t.root) : Collision keccak256 inputs := by
  -- Its upper part starts at a leaf, to which its lower part leads as the parent of a pair.
  obtain ⟨lower, upper, rfl, hlength⟩ : ∃ lower upper : Path, lower ++ upper = path ∧
      upper.length = t.depth :=
    ⟨path.take (path.length - t.depth), path.drop (path.length - t.depth),
      List.take_append_drop _ _, by rw [List.length_drop]; omega⟩
  have hlower : lower ≠ [] := by
    rintro rfl
    rw [List.nil_append] at hlong
    omega
  have hown : ∀ pair ∈ Path.pairs (Node.digest message) (lower ++ upper),
      Node.abovePreimage pair ∈ inputs := by
    intro pair hpair
    exact hpath (Path.preimage_mem_messages hpair)
  rw [Path.pairs_append] at hown
  rw [Path.fold_append] at hroot
  rcases ht.steps_of_fold hlength hroot with ⟨hnode, -⟩ | hcollision
  · obtain ⟨pair, hpair, habove⟩ := Path.exists_pair_of_fold hlower (Node.digest message)
    have hmem := List.mem_of_getElem? hnode
    rw [hleaves] at hmem
    obtain ⟨m, hm, hdigest⟩ := List.mem_map.mp hmem
    have hlengths : m.length ≠ (Node.abovePreimage pair).length := by
      rw [Node.length_abovePreimage]
      exact hwidths m hm
    exact Node.collision_of_lengths (hleaf hm) (hown pair (List.mem_append_left _ hpair)) hlengths
      (hdigest.trans habove.symm)
  · apply Node.collision_of_pairs hcollision htree
    intro pair hpair
    exact hown pair (List.mem_append_right _ hpair)

theorem message_of_fold (ht : t.Perfect) (hleaves : t.leaves = leafMessages.map Node.digest)
    (hwidths : ∀ m ∈ leafMessages, m.length ≠ 64) (hwidth : message.length ≠ 64)
    (hleaf : leafMessages ⊆ inputs) (htree : ∀ pair ∈ t.pairs, Node.abovePreimage pair ∈ inputs)
    (hpath : path.messages message ⊆ inputs)
    (hroot : path.fold (Node.digest message) = t.root) :
    (path.length = t.depth ∧ t.steps path.place = path ∧
      leafMessages[path.place]? = some message) ∨ Collision keccak256 inputs := by
  rcases Nat.lt_trichotomy path.length t.depth with hshort | hequal | hlong
  · exact .inr (ht.collision_of_short hwidth htree hpath hshort hroot)
  · rcases ht.steps_of_fold hequal hroot with ⟨hnode, hsteps⟩ | hcollision
    · rw [hleaves, List.getElem?_map] at hnode
      obtain ⟨m, hm, hdigest⟩ := Option.map_eq_some_iff.mp hnode
      have hmessage := hleaf (List.mem_of_getElem? hm)
      rcases eq_or_collision hmessage (hpath List.mem_cons_self)
        (Node.keccak256_eq_of_digest hdigest) with rfl | hcollision
      · exact .inl ⟨hequal, hsteps, hm⟩
      · exact .inr hcollision
    · refine .inr (Node.collision_of_pairs hcollision htree ?_)
      intro pair hpair
      exact hpath (Path.preimage_mem_messages hpair)
  · exact .inr (ht.collision_of_long hleaves hwidths hleaf htree hpath hlong hroot)

end Tree.Perfect

end ClaimTree
