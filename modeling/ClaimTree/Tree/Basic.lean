import ClaimTree.Tree.Path

namespace ClaimTree

/-- A layer of nodes with the tree of their parents above it, or a root alone. -/
inductive Tree
  | top (node : Node)
  | layer (nodes : List Node) (above : Tree)
deriving DecidableEq

namespace Tree

def root : Tree → Node
  | top node => node
  | layer _ above => above.root

def leaves : Tree → List Node
  | top node => [node]
  | layer nodes _ => nodes

/-- The number of layers below the root. -/
def depth : Tree → Nat
  | top _ => 0
  | layer _ above => above.depth + 1

/-- All layers, the leaves first and the root last. -/
def layers : Tree → List (List Node)
  | top node => [[node]]
  | layer nodes above => nodes :: above.layers

def leafCount (t : Tree) : Nat := t.leaves.length

/-- Combines every two neighbours; a node without a partner is left out. -/
def pairUp : List Node → List Node
  | left :: right :: rest => left.combine right :: pairUp rest
  | _ => []

theorem length_pairUp (nodes : List Node) : (pairUp nodes).length = nodes.length / 2 := by
  fun_induction pairUp nodes with
  | case1 left right rest ih => simp only [List.length_cons, ih]; omega
  | case2 nodes short =>
    match nodes with
    | [] => simp
    | [_] => simp
    | left :: right :: rest => exact absurd rfl (short left right rest)

/-- Raises the tree over layer number `level`. -/
def raise (level : Nat) (nodes : List Node) : Except TreeError Tree :=
  match nodes with
  | [] => .error .noLeaves
  | [node] => .ok (top node)
  | left :: right :: rest =>
    let nodes := left :: right :: rest
    if nodes.length % 2 = 0 then (raise (level + 1) (pairUp nodes)).map (layer nodes)
    else .error (.unpairedLayer level nodes.length)
termination_by nodes.length
decreasing_by simp only [length_pairUp, List.length_cons]; omega

/-- The tree over a list of leaves. -/
def ofLeaves (leaves : List Node) : Except TreeError Tree := raise 0 leaves

def leaf (t : Tree) (index : Nat) : Except TreeError Node :=
  match t.leaves[index]? with
  | some node => .ok node
  | none => .error (.indexOutOfRange index t.leafCount)

/-- The steps from place `index` of the lowest layer; a missing sibling is left out. -/
def steps : Tree → Nat → Path
  | top _, _ => []
  | layer nodes above, index =>
    let isRight := index % 2 == 1
    let sibling := nodes[if isRight then index - 1 else index + 1]?
    (sibling.map (PathStep.mk · isRight)).toList ++ above.steps (index / 2)

def path (t : Tree) (index : Nat) : Except TreeError Path :=
  if index < t.leafCount then .ok (t.steps index)
  else .error (.indexOutOfRange index t.leafCount)

end Tree

end ClaimTree
