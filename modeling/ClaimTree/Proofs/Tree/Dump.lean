import ClaimTree.Proofs.Text.Digit
import ClaimTree.Proofs.Text.Hex
import ClaimTree.Proofs.Text.Split
import ClaimTree.Proofs.Tree.Perfect
import ClaimTree.Tree.Dump

namespace ClaimTree.Tree

/-- What a dump says of a node: its layer, its place there and the node itself. -/
structure Entry where
  level : Nat
  index : Nat
  node : Node

/-- The line of a node without its line break. -/
def Entry.line (e : Entry) : List Char :=
  Nat.toDigits 10 e.level ++ ':' :: Nat.toDigits 10 e.index ++ ':' :: e.node.text.toList

/-- The nodes in the order of a dump. -/
def entries (t : Tree) : List Entry :=
  t.layers.zipIdx.flatMap fun (nodes, level) =>
    nodes.zipIdx.map fun (node, index) => ⟨level, index, node⟩

theorem toList_dump (t : Tree) :
    t.dump.toList = (t.entries.map Entry.line).flatMap (· ++ ['\n']) := by
  have hline (level index : Nat) (node : Node) :
      dumpLine level index node = Entry.line ⟨level, index, node⟩ ++ ['\n'] := rfl
  simp only [dump, String.toList_ofList, dumpLayer, entries, hline]
  simp only [List.flatMap_map, List.flatMap_assoc, List.map_flatMap]

theorem Entry.solid_line (e : Entry) : Text.Solid e.line := by
  have hnode : Text.Solid e.node.text.toList := by
    rw [Node.text, Text.hexText, String.toList_ofList]
    exact .cons rfl (.cons rfl (Text.solid_hexDigits _))
  have hplace := (Text.solid_toDigits e.level).append (.cons (c := ':') rfl
    (Text.solid_toDigits e.index))
  exact hplace.append (.cons rfl hnode)

theorem split_dump (t : Tree) :
    Text.split '\n' t.dump.toList = t.entries.map Entry.line ++ [[]] := by
  rw [toList_dump]
  refine Text.split_flatMap fun l hl hbreak => ?_
  obtain ⟨e, -, rfl⟩ := List.mem_map.mp hl
  cases e.solid_line '\n' hbreak

theorem lines_dump (t : Tree) : Text.lines t.dump.toList = t.entries.map Entry.line := by
  rw [Text.lines, split_dump, List.dropLast_concat]

theorem getLast?_entries (t : Tree) : t.entries.getLast? = some ⟨t.depth, 0, t.root⟩ := by
  obtain ⟨lower, hlayers, hlength⟩ := t.exists_layers_eq
  rw [entries, hlayers, List.zipIdx_append, List.flatMap_append, Nat.zero_add, hlength]
  exact List.getLast?_concat

/-- The last line of a dump is that of the root, above all other layers. -/
theorem getLast?_lines_dump (t : Tree) :
    (Text.lines t.dump.toList).getLast? =
      some (Nat.toDigits 10 t.depth ++ ':' :: '0' :: ':' :: t.root.text.toList) := by
  rw [lines_dump, List.getLast?_map, getLast?_entries, Option.map_some, Entry.line,
    Nat.toDigits_zero, List.append_assoc]
  rfl

end ClaimTree.Tree
