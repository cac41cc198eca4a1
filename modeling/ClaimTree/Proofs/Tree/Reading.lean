import ClaimTree.Proofs.Except
import ClaimTree.Proofs.Node
import ClaimTree.Proofs.Tree.Dump
import ClaimTree.Proofs.Tree.Layers
import ClaimTree.Proofs.Tree.Sides

namespace ClaimTree.Tree

/-- Reads a line: a layer, a place in it and a node, with colons between. -/
def Entry.ofLine? (line : List Char) : Option Entry :=
  match Text.split ':' line with
  | [level, index, node] => do
    let level ← Text.number? 10 level
    let index ← Text.number? 10 index
    let node ← (Node.parse (String.ofList node)).toOption
    return ⟨level, index, node⟩
  | _ => none

/-- The layers of which entries tell, up to that of the last entry. -/
def layersOf (entries : List Entry) : List (List Node) :=
  match entries.getLast? with
  | none => []
  | some last => (List.range (last.level + 1)).map fun level =>
    (entries.filter (·.level == level)).map (·.node)

/-- The node that entries tell at a place of a layer. -/
def nodeOf? (entries : List Entry) (level index : Nat) : Option Node :=
  (entries.find? fun e => e.level == level && e.index == index).map (·.node)

/-- The path from a leaf up to the layer of the last entry. -/
def pathOf? (entries : List Entry) (index : Nat) : Option Path := do
  let last ← entries.getLast?
  let _ ← nodeOf? entries 0 index
  (List.range last.level).mapM fun level =>
    (nodeOf? entries level ((index / 2 ^ level) ^^^ 1)).map (PathStep.mk · (index.testBit level))

theorem Entry.colon_not_mem (e : Entry) :
    ':' ∉ Nat.toDigits 10 e.level ∧ ':' ∉ Nat.toDigits 10 e.index ∧ ':' ∉ e.node.text.toList := by
  have hnumber (n : Nat) : ':' ∉ Nat.toDigits 10 n :=
    (Text.numeral_toDigits (by decide) n).not_mem (by decide) rfl
  refine ⟨hnumber _, hnumber _, ?_⟩
  rw [Node.text, Text.hexText, String.toList_ofList]
  have hdigits : ':' ∉ Text.hexDigits e.node.bytes.toList :=
    Text.not_mem_of_digits (Text.digits_hexDigits _) rfl
  exact List.not_mem_cons_of_ne_of_not_mem (by decide)
    (List.not_mem_cons_of_ne_of_not_mem (by decide) hdigits)

theorem Entry.ofLine?_line (e : Entry) : Entry.ofLine? e.line = some e := by
  obtain ⟨hlevel, hindex, hnode⟩ := e.colon_not_mem
  have hsplit : Text.split ':' e.line =
      [Nat.toDigits 10 e.level, Nat.toDigits 10 e.index, e.node.text.toList] := by
    rw [Entry.line, List.append_assoc, List.cons_append, Text.split_append_cons hlevel,
      Text.split_append_cons hindex, Text.split_of_not_mem hnode]
  have hnumber (n : Nat) : Text.number? 10 (Nat.toDigits 10 n) = some n :=
    Text.number?_toDigits (by decide) (by decide) n
  rw [Entry.ofLine?, hsplit]
  simp only [hnumber, String.ofList_toList, Node.parse_text]
  rfl

theorem mapM_ofLine?_lines (es : List Entry) :
    (es.map Entry.line).mapM Entry.ofLine? = some es := by
  refine mapM_eq_some ?_
  rw [List.map_map]
  exact List.map_congr_left fun e _ => e.ofLine?_line

section Entries

variable {t : Tree} {level index : Nat}

theorem mem_entries {e : Entry} : e ∈ t.entries ↔ t.node? e.level e.index = some e.node := by
  simp only [entries, List.mem_flatMap, List.mem_map, Prod.exists, List.mem_zipIdx_iff_getElem?,
    node?, Option.bind_eq_some_iff]
  constructor
  · rintro ⟨nodes, level, hnodes, node, index, hnode, rfl⟩
    exact ⟨nodes, hnodes, hnode⟩
  · rintro ⟨nodes, hnodes, hnode⟩
    exact ⟨nodes, e.level, hnodes, e.node, e.index, hnode, rfl⟩

theorem nodeOf?_entries (t : Tree) (level index : Nat) :
    nodeOf? t.entries level index = t.node? level index := by
  rw [nodeOf?]
  cases hfound : t.entries.find? fun e => e.level == level && e.index == index with
  | none =>
    rw [Option.map_none]
    cases hnode : t.node? level index with
    | none => rfl
    | some node =>
      have hmem : ⟨level, index, node⟩ ∈ t.entries := mem_entries.mpr hnode
      have hnone := List.find?_eq_none.mp hfound _ hmem
      simp at hnone
  | some e =>
    have hmem := mem_entries.mp (List.mem_of_find?_eq_some hfound)
    have hplace := List.find?_some hfound
    simp only [Bool.and_eq_true, beq_iff_eq] at hplace
    rw [← hplace.1, ← hplace.2, hmem, Option.map_some]

end Entries

/-- The entries of one layer. -/
def layerEntries (level : Nat) (nodes : List Node) : List Entry :=
  nodes.zipIdx.map fun (node, index) => ⟨level, index, node⟩

/-- The entries of layers of which the lowest has number `start`. -/
def entriesFrom (start : Nat) (layers : List (List Node)) : List Entry :=
  (layers.zipIdx start).flatMap fun (nodes, level) => layerEntries level nodes

section Layers

variable {nodes : List Node} {layers : List (List Node)} {start level index : Nat} {node : Node}

theorem entries_eq (t : Tree) : t.entries = entriesFrom 0 t.layers := rfl

theorem entriesFrom_cons (start : Nat) (nodes : List Node) (layers : List (List Node)) :
    entriesFrom start (nodes :: layers) =
      layerEntries start nodes ++ entriesFrom (start + 1) layers := by
  rw [entriesFrom, List.zipIdx_cons, List.flatMap_cons, ← entriesFrom]

theorem length_layerEntries (level : Nat) (nodes : List Node) :
    (layerEntries level nodes).length = nodes.length := by
  rw [layerEntries, List.length_map, List.length_zipIdx]

theorem length_entriesFrom (start : Nat) (layers : List (List Node)) :
    (entriesFrom start layers).length = layers.flatten.length := by
  induction layers generalizing start with
  | nil => rfl
  | cons nodes layers ih =>
    rw [entriesFrom_cons, List.length_append, length_layerEntries, ih, List.flatten_cons,
      List.length_append]

theorem getElem?_layerEntries (hnode : nodes[index]? = some node) :
    (layerEntries level nodes)[index]? = some ⟨level, index, node⟩ := by
  rw [layerEntries, List.getElem?_map, List.getElem?_zipIdx, hnode, Option.map_some,
    Option.map_some, Nat.zero_add]

/-- A node has the entry that comes after those of the lower layers and of the nodes left of it. -/
theorem getElem?_entriesFrom (hnodes : layers[level]? = some nodes)
    (hnode : nodes[index]? = some node) :
    (entriesFrom start layers)[(layers.take level).flatten.length + index]? =
      some ⟨start + level, index, node⟩ := by
  induction layers generalizing start level with
  | nil => cases hnodes
  | cons lowest layers ih =>
    rw [entriesFrom_cons]
    cases level with
    | zero =>
      obtain rfl := Option.some.inj hnodes
      obtain ⟨hindex, -⟩ := List.getElem?_eq_some_iff.mp hnode
      rw [List.take_zero, List.flatten_nil, List.length_nil, Nat.zero_add, List.getElem?_append_left
        (by rwa [length_layerEntries]), getElem?_layerEntries hnode]
      rfl
    | succ level =>
      have hupper : (entriesFrom (start + 1) layers)[(layers.take level).flatten.length + index]? =
          some ⟨start + 1 + level, index, node⟩ := ih hnodes
      rw [List.take_succ_cons, List.flatten_cons, List.length_append, Nat.add_assoc,
        ← length_layerEntries start lowest, List.getElem?_append_right (Nat.le_add_right _ _),
        Nat.add_sub_cancel_left, hupper, Nat.add_assoc, Nat.add_comm 1]

theorem map_node_layerEntries (level : Nat) (nodes : List Node) :
    (layerEntries level nodes).map (·.node) = nodes := by
  rw [layerEntries, List.map_map]
  exact List.zipIdx_map_fst 0 nodes

theorem level_of_mem_layerEntries {e : Entry} (he : e ∈ layerEntries level nodes) :
    e.level = level := by
  obtain ⟨_, -, rfl⟩ := List.mem_map.mp he
  rfl

theorem filter_layerEntries (start level : Nat) (nodes : List Node) :
    ((layerEntries start nodes).filter (·.level == level)).map (·.node) =
      if start = level then nodes else [] := by
  by_cases hlevel : start = level
  · have hall : (layerEntries start nodes).filter (·.level == level) = layerEntries start nodes :=
      List.filter_eq_self.mpr fun e he =>
        beq_iff_eq.mpr ((level_of_mem_layerEntries he).trans hlevel)
    rw [if_pos hlevel, hall, map_node_layerEntries]
  · have hnone : (layerEntries start nodes).filter (·.level == level) = [] :=
      List.filter_eq_nil_iff.mpr fun e he h =>
        hlevel ((level_of_mem_layerEntries he).symm.trans (beq_iff_eq.mp h))
    rw [if_neg hlevel, hnone, List.map_nil]

/-- Every layer is told whole and in order. -/
theorem filter_entriesFrom (start level : Nat) (layers : List (List Node)) :
    ((entriesFrom start layers).filter (·.level == level)).map (·.node) =
      if start ≤ level then (layers[level - start]?).getD [] else [] := by
  induction layers generalizing start with
  | nil =>
    split <;> rfl
  | cons nodes layers ih =>
    rw [entriesFrom_cons, List.filter_append, List.map_append, filter_layerEntries, ih]
    -- The layer is among those above the lowest one, or it is the lowest, or it is below them all.
    rcases Nat.lt_trichotomy start level with hbelow | hsame | habove
    · have hplace : level - start = level - (start + 1) + 1 := by omega
      rw [if_neg (Nat.ne_of_lt hbelow), if_pos (Nat.succ_le_of_lt hbelow),
        if_pos (Nat.le_of_lt hbelow), hplace,
        List.getElem?_cons_succ, List.nil_append]
    · rw [if_pos hsame, if_neg (by omega), if_pos (Nat.le_of_eq hsame), hsame, Nat.sub_self,
        List.append_nil]
      rfl
    · rw [if_neg (Nat.ne_of_gt habove), if_neg (by omega), if_neg (by omega), List.append_nil]

end Layers

theorem layersOf_entries (t : Tree) : layersOf t.entries = t.layers := by
  rw [layersOf, getLast?_entries]
  apply List.ext_getElem?
  intro level
  rw [List.getElem?_map, entries_eq]
  by_cases hlevel : level < t.depth + 1
  · have hlayer := List.getElem?_eq_getElem (hlevel.trans_eq t.length_layers.symm)
    rw [List.getElem?_range hlevel, Option.map_some, filter_entriesFrom, if_pos (Nat.zero_le _),
      Nat.sub_zero, hlayer]
    rfl
  · rw [List.getElem?_eq_none (by rw [List.length_range]; exact Nat.le_of_not_lt hlevel),
      List.getElem?_eq_none (by rw [t.length_layers]; exact Nat.le_of_not_lt hlevel)]
    rfl

theorem depth_eq_of_layers_eq {t t' : Tree} (h : t.layers = t'.layers) : t.depth = t'.depth := by
  have hlength := congrArg List.length h
  rw [length_layers, length_layers] at hlength
  exact Nat.succ.inj hlength

theorem layers_injective : Function.Injective layers := by
  intro t t' h
  have hdepth := depth_eq_of_layers_eq h
  induction t generalizing t' with
  | top node =>
    cases t' with
    | top node' =>
      obtain ⟨hroot, -⟩ := List.cons.inj h
      rw [(List.cons.inj hroot).1]
    | layer nodes' above' => cases hdepth
  | layer nodes above ih =>
    cases t' with
    | top node' => cases hdepth
    | layer nodes' above' =>
      obtain ⟨rfl, habove⟩ := List.cons.inj h
      rw [ih habove (Nat.succ.inj hdepth)]

/-- Two trees have the same dump only if they are the same. -/
theorem dump_injective : Function.Injective dump := by
  intro t t' h
  have hlines : t.entries.map Entry.line = t'.entries.map Entry.line := by
    rw [← lines_dump, ← lines_dump, h]
  have hentries := mapM_ofLine?_lines t.entries
  rw [hlines, mapM_ofLine?_lines] at hentries
  apply layers_injective
  rw [← layersOf_entries, ← layersOf_entries, Option.some.inj hentries]

/-- In a perfect tree there is one node less than twice as many as there are leaves. -/
theorem Perfect.length_flatten_layers {t : Tree} (ht : t.Perfect) :
    t.layers.flatten.length = 2 * t.leafCount - 1 := by
  induction t with
  | top node => rfl
  | layer nodes above ih =>
    obtain ⟨habove, -, hlength⟩ := ht
    rw [layers, List.flatten_cons, List.length_append, ih habove, hlength]
    change _ = 2 * nodes.length - 1
    have hpos := habove.leafCount_pos
    omega

section Paths

variable {t : Tree} {index : Nat}

theorem nodeOf?_leaf (t : Tree) (index : Nat) : nodeOf? t.entries 0 index = t.leaves[index]? := by
  rw [nodeOf?_entries, node?]
  cases t <;> rfl

/-- A path is gathered from the entries as from the tree. -/
theorem Perfect.pathOf?_entries (ht : t.Perfect) (index : Nat) :
    pathOf? t.entries index = (t.path index).toOption := by
  rw [pathOf?, getLast?_entries, nodeOf?_leaf]
  by_cases hindex : index < t.leafCount
  · rw [path_eq_ok hindex, List.getElem?_eq_getElem hindex]
    refine mapM_eq_some (List.ext_getElem? fun level => ?_)
    rw [List.getElem?_map, List.getElem?_map]
    -- The last entry is that of the root, so the levels that are asked for are those of the steps.
    by_cases hlevel : level < t.depth
    · obtain ⟨step, nodes, hstep, hnodes, -, hsibling, hside⟩ :=
        ht.getElem?_steps hindex hlevel
      rw [List.getElem?_range hlevel, hstep, Option.map_some, Option.map_some, nodeOf?_entries,
        node?, hnodes, Option.bind_some, hsibling, Option.map_some, ← hside]
    · have hbeyond := Nat.le_of_not_lt hlevel
      rw [List.getElem?_eq_none (by rwa [List.length_range]),
        List.getElem?_eq_none (by rwa [ht.length_steps hindex])]
      rfl
  · have hbeyond := Nat.le_of_not_lt hindex
    rw [path_eq_error_iff.mpr ⟨hbeyond, rfl⟩, List.getElem?_eq_none hbeyond]
    rfl

end Paths

theorem getElem?_lines_of_node? {t : Tree} {level index : Nat} {node : Node}
    (hnode : t.node? level index = some node) :
    (t.entries.map Entry.line)[(t.layers.take level).flatten.length + index]? =
      some (Entry.line ⟨level, index, node⟩) := by
  obtain ⟨nodes, hnodes, hplace⟩ := Option.bind_eq_some_iff.mp hnode
  rw [List.getElem?_map, entries_eq, getElem?_entriesFrom hnodes hplace, Nat.zero_add,
    Option.map_some]

/-- The dump of a tree over leaves is one line for every node and no more, each at the place that
its layer and its index in it give, the root last. From a line its layer, index and node can be
read, hence from all of them the layers and every path, and no other tree has the same dump. -/
theorem dump_tells_tree {leaves : List Node} {t : Tree} (h : ofLeaves leaves = .ok t) :
    ∃ ls, Text.split '\n' t.dump.toList = ls ++ [[]] ∧ ls.length = 2 * t.leafCount - 1 ∧
      (∀ level index node, t.node? level index = some node → ∃ line,
        ls[(t.layers.take level).flatten.length + index]? = some line ∧
        Entry.ofLine? line = some ⟨level, index, node⟩) ∧
      ls.getLast?.bind Entry.ofLine? = some ⟨t.depth, 0, t.root⟩ ∧
      ∃ entries, ls.mapM Entry.ofLine? = some entries ∧
        (∀ e, e ∈ entries ↔ t.node? e.level e.index = some e.node) ∧
        layersOf entries = t.layers ∧
        (∀ index, pathOf? entries index = (t.path index).toOption) ∧
        ∀ leaves' t', ofLeaves leaves' = .ok t' → (t.dump = t'.dump ↔ t = t') := by
  obtain ⟨ht, -⟩ := ofLeaves_eq_ok_iff.mp h
  refine ⟨t.entries.map Entry.line, split_dump t, ?_, ?_, ?_, t.entries, mapM_ofLine?_lines _,
    fun _ => mem_entries, layersOf_entries t, ht.pathOf?_entries,
    fun _ _ _ => dump_injective.eq_iff⟩
  · rw [List.length_map, entries_eq, length_entriesFrom, ht.length_flatten_layers]
  · intro level index node hnode
    exact ⟨_, getElem?_lines_of_node? hnode, Entry.ofLine?_line _⟩
  · rw [List.getLast?_map, getLast?_entries, Option.map_some, Option.bind_some, Entry.ofLine?_line]

theorem dump_tells_tree_four :
    let node (n : UInt64) := Node.ofUint256 (.ofUInt64 n)
    let leaves := [node 1, node 2, node 3, node 4]
    let upper := [(node 1).combine (node 2), (node 3).combine (node 4)]
    let root := ((node 1).combine (node 2)).combine ((node 3).combine (node 4))
    let t := layer leaves (layer upper (top root))
    ofLeaves leaves = .ok t ∧ ∃ ls, Text.split '\n' t.dump.toList = ls ++ [[]] ∧ ls.length = 7 ∧
      ls[5]?.bind Entry.ofLine? = some ⟨1, 1, (node 3).combine (node 4)⟩ ∧
      ls.getLast?.bind Entry.ofLine? = some ⟨2, 0, root⟩ ∧
      ∃ entries, ls.mapM Entry.ofLine? = some entries ∧ layersOf entries = [leaves, upper, [root]] ∧
        pathOf? entries 2 = some [⟨node 4, false⟩, ⟨(node 1).combine (node 2), true⟩] ∧
        pathOf? entries 4 = none ∧
        ∀ t', ofLeaves [node 2, node 1, node 3, node 4] = .ok t' → t.dump ≠ t'.dump := by
  intro node leaves upper root t
  have hperfect : t.Perfect := ⟨⟨trivial, rfl, rfl⟩, rfl, rfl⟩
  have htree : ofLeaves leaves = .ok t := ofLeaves_eq_ok_iff.mpr ⟨hperfect, rfl⟩
  obtain ⟨ls, hsplit, hlength, hlines, hlast, entries, hentries, -, hlayers, hpaths, hsame⟩ :=
    dump_tells_tree htree
  obtain ⟨line, hline, hread⟩ := hlines 1 1 _ rfl
  have hfifth : ls[5]? = some line := hline
  refine ⟨htree, ls, hsplit, hlength, ?_, hlast, entries, hentries, hlayers, hpaths 2, hpaths 4, ?_⟩
  · rw [hfifth, Option.bind_some, hread]
  · intro t' ht' hdump
    obtain ⟨-, hleaves⟩ := ofLeaves_eq_ok_iff.mp ht'
    rw [← (hsame _ t' ht').mp hdump] at hleaves
    have hfirst : node 1 = node 2 := (List.cons.inj hleaves).1
    exact absurd hfirst (by decide)

end ClaimTree.Tree
