import ClaimTree.Tree.Basic

namespace ClaimTree.Tree

/-- A line `level:index:node`. -/
def dumpLine (level index : Nat) (node : Node) : List Char :=
  Nat.toDigits 10 level ++ ':' :: Nat.toDigits 10 index ++ ':' :: node.text.toList ++ ['\n']

def dumpLayer (level : Nat) (nodes : List Node) : List Char :=
  nodes.zipIdx.flatMap fun (node, index) => dumpLine level index node

def dump (t : Tree) : String :=
  String.ofList (t.layers.zipIdx.flatMap fun (nodes, level) => dumpLayer level nodes)

end ClaimTree.Tree
