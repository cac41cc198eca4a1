import ClaimTree.Node
import ClaimTree.Orientation

namespace ClaimTree

structure PathStep where
  sibling : Node
  siblingIsLeft : Bool
deriving DecidableEq

/-- A path lists its steps from the leaf upwards. -/
abbrev Path := List PathStep

namespace PathStep

/-- The two nodes that a step combines, left before right. -/
def pair (step : PathStep) (node : Node) : Node × Node :=
  if step.siblingIsLeft then (step.sibling, node) else (node, step.sibling)

/-- The node above `node` and its sibling. -/
def parent (step : PathStep) (node : Node) : Node :=
  (step.pair node).1.combine (step.pair node).2

end PathStep

namespace Path

def siblings (path : Path) : List Node := path.map (·.sibling)

def sides (path : Path) : List Bool := path.map (·.siblingIsLeft)

/-- The path with these siblings on these sides. -/
def zip (siblings : List Node) (sides : List Bool) : Path :=
  List.zipWith PathStep.mk siblings sides

/-- The root to which a path leads from a leaf. -/
def fold (leaf : Node) (path : Path) : Node :=
  path.foldl (fun node step => step.parent node) leaf

def orientation (path : Path) : Except TreeError Orientation :=
  Orientation.ofFlags path.sides

end Path

end ClaimTree
