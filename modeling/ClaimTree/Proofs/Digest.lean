import ClaimTree.Node
import ClaimTree.Proofs.Bytes

namespace ClaimTree

/-- Two different inputs of a list have the same digest. -/
def Collision {α β : Type} (digest : α → β) (inputs : List α) : Prop :=
  ∃ a ∈ inputs, ∃ b ∈ inputs, a ≠ b ∧ digest a = digest b

section Collision

variable {α β : Type} {digest : α → β} {inputs others : List α}

theorem eq_or_collision {a b : α} (ha : a ∈ inputs) (hb : b ∈ inputs) (h : digest a = digest b) :
    a = b ∨ Collision digest inputs := by
  by_cases hab : a = b
  · exact .inl hab
  · exact .inr ⟨a, ha, b, hb, hab, h⟩

theorem Collision.mono (h : Collision digest inputs) (hsub : inputs ⊆ others) :
    Collision digest others := by
  obtain ⟨a, ha, b, hb, hab, hdigest⟩ := h
  exact ⟨a, hsub ha, b, hsub hb, hab, hdigest⟩

end Collision

namespace Node

def digest (message : List UInt8) : Node := ⟨keccak256 message⟩

theorem keccak256_eq_of_digest {m n : List UInt8} (h : digest m = digest n) :
    keccak256 m = keccak256 n := Node.mk.inj h

/-- The node above an ordered pair of nodes. -/
def above (pair : Node × Node) : Node := pair.1.combine pair.2

def abovePreimage (pair : Node × Node) : List UInt8 := pairMessage pair.1 pair.2

theorem length_abovePreimage (pair : Node × Node) : (abovePreimage pair).length = 64 := by
  rw [abovePreimage, pairMessage, List.length_append, Bytes.length_toList, Bytes.length_toList]

theorem abovePreimage_injective : Function.Injective abovePreimage := by
  rintro ⟨left, right⟩ ⟨left', right'⟩ h
  obtain ⟨hleft, hright⟩ := Bytes.append_inj h
  exact Prod.ext (Node.ext hleft) (Node.ext (Bytes.ext hright))

theorem collision_of_pairs {pairs others : List (Node × Node)} {messages : List (List UInt8)}
    (h : Collision above (pairs ++ others))
    (hpairs : ∀ pair ∈ pairs, abovePreimage pair ∈ messages)
    (hothers : ∀ pair ∈ others, abovePreimage pair ∈ messages) : Collision keccak256 messages := by
  have hmem : ∀ pair ∈ pairs ++ others, abovePreimage pair ∈ messages := by
    intro pair hpair
    exact (List.mem_append.mp hpair).elim (hpairs pair) (hothers pair)
  obtain ⟨p, hp, q, hq, hpq, habove⟩ := h
  exact ⟨_, hmem p hp, _, hmem q hq, fun he => hpq (abovePreimage_injective he),
    keccak256_eq_of_digest habove⟩

theorem collision_of_lengths {messages : List (List UInt8)} {m n : List UInt8} (hm : m ∈ messages)
    (hn : n ∈ messages) (hlength : m.length ≠ n.length) (h : digest m = digest n) :
    Collision keccak256 messages :=
  ⟨m, hm, n, hn, fun he => hlength (congrArg List.length he), keccak256_eq_of_digest h⟩

end Node

end ClaimTree
