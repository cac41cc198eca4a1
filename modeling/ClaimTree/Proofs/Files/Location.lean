import ClaimTree.Files.Location
import ClaimTree.Proofs.Text.Split

namespace ClaimTree.Files

theorem slash_not_mem_of_mem_parts {path p : String} (hp : p ∈ parts path) : '/' ∉ p.toList := by
  obtain ⟨piece, hpiece, rfl⟩ := List.mem_map.mp hp
  rw [String.toList_ofList]
  exact Text.not_mem_of_mem_split hpiece

theorem parts_ne_nil (path : String) : parts path ≠ [] := by
  rw [parts, Text.split_eq_splitOn]
  exact fun h => List.splitOn_ne_nil '/' _ (List.map_eq_nil_iff.mp h)

theorem parts_of_slash_not_mem {path : String} (h : '/' ∉ path.toList) : parts path = [path] := by
  rw [parts, Text.split_eq_splitOn, List.splitOn_eq_singleton h, List.map_singleton,
    String.ofList_toList]

theorem parts_intercalate {ps : List String} (hne : ps ≠ []) (hps : ∀ p ∈ ps, '/' ∉ p.toList) :
    parts ("/".intercalate ps) = ps := by
  have hsplit : (['/'].intercalate (ps.map String.toList)).splitOn '/' = ps.map String.toList := by
    refine List.splitOn_intercalate '/' (fun l hl => ?_) (by simpa using hne)
    obtain ⟨p, hp, rfl⟩ := List.mem_map.mp hl
    exact hps p hp
  have hslash : "/".toList = ['/'] := rfl
  rw [parts, Text.split_eq_splitOn, String.toList_intercalate, hslash, hsplit, List.map_map]
  exact (List.map_congr_left fun p _ => String.ofList_toList).trans (List.map_id ps)

/-- A path starts at the root when an empty part stands in front of others. -/
theorem isAbsolute_iff (path : String) :
    isAbsolute path = true ↔ (parts path).head? = some "" ∧ 1 < (parts path).length := by
  rw [isAbsolute, parts]
  cases path.toList with
  | nil => simp [Text.split]
  | cons c s =>
    by_cases hc : c = '/'
    · have hne : 0 < (Text.split '/' s).length := by
        rw [Text.split_eq_splitOn]
        exact List.length_pos_iff.mpr (List.splitOn_ne_nil '/' s)
      simp [Text.split, hc, hne]
    · rw [Text.split, if_neg hc]
      cases Text.split '/' s <;> simp [hc]

theorem exists_trimIdle_append (ps : List String) :
    ∃ idle, ps = trimIdle ps ++ idle ∧ ∀ p ∈ idle, isIdle p = true := by
  refine ⟨(ps.reverse.takeWhile isIdle).reverse, ?_, fun p hp => ?_⟩
  · rw [trimIdle, ← List.reverse_append, List.takeWhile_append_dropWhile, List.reverse_reverse]
  · exact List.all_eq_true.mp List.all_takeWhile p (List.mem_reverse.mp hp)

theorem isIdle_eq_false_iff {part : String} : isIdle part = false ↔ part ≠ "" ∧ part ≠ "." := by
  rw [isIdle, Bool.or_eq_false_iff, beq_eq_false_iff_ne, beq_eq_false_iff_ne]

theorem trimIdle_concat {name : String} (hname : isIdle name = false) (before : List String) :
    trimIdle (before ++ [name]) = before ++ [name] := by
  rw [trimIdle, List.reverse_append, List.reverse_singleton, List.singleton_append,
    List.dropWhile_cons, if_neg (by rw [hname]; exact Bool.false_ne_true)]
  simp

theorem sibling_of_parts {path : String} (hparts : parts path = [path])
    (hidle : isIdle path = false) (other : String) : sibling path other = other := by
  have htrim : trimIdle [path] = [path] := trimIdle_concat hidle []
  rw [sibling, hparts, htrim]
  exact String.intercalate_singleton

theorem isIdle_of_trimIdle {ps before : List String} {name : String}
    (h : trimIdle ps = before ++ [name]) : isIdle name = false := by
  have hdrop : ps.reverse.dropWhile isIdle = name :: before.reverse := by
    rw [← List.reverse_reverse (ps.reverse.dropWhile isIdle)]
    change (trimIdle ps).reverse = _
    rw [h, List.reverse_append, List.reverse_singleton, List.singleton_append]
  have hhead := List.head?_dropWhile_not isIdle ps.reverse
  rwa [hdrop] at hhead

theorem fileName?_eq_some_iff {path name : String} :
    fileName? path = some name ↔
      (∃ before, trimIdle (parts path) = before ++ [name]) ∧ name ≠ ".." := by
  rw [fileName?, Option.filter_eq_some_iff, List.getLast?_eq_some_iff, bne_iff_ne]

theorem mem_parts_of_trimIdle {path p : String} (hp : p ∈ trimIdle (parts path)) :
    p ∈ parts path := by
  obtain ⟨idle, hparts, -⟩ := exists_trimIdle_append (parts path)
  rw [hparts]
  exact List.mem_append_left idle hp

/-- A sibling lies behind the same parts, up to idle ones. -/
theorem exists_parts_sibling {path name : String} {before : List String}
    (htrim : trimIdle (parts path) = before ++ [name]) {other : String}
    (hother : '/' ∉ other.toList) :
    ∃ kept idle, parts (sibling path other) = kept ++ [other] ∧ before = kept ++ idle ∧
      (∀ p ∈ idle, isIdle p = true) ∧ (kept = [] → before = []) := by
  have hsibling : sibling path other = "/".intercalate
      ((if (trimIdle before).isEmpty then before.take 1 else trimIdle before) ++ [other]) := by
    rw [sibling, htrim, List.dropLast_concat]
  obtain ⟨idle, hbefore, hidles⟩ := exists_trimIdle_append before
  have hkept : ∀ kept : List String, (∃ rest, before = kept ++ rest) →
      parts ("/".intercalate (kept ++ [other])) = kept ++ [other] := by
    rintro kept ⟨rest, hrest⟩
    refine parts_intercalate (by simp) fun p hp => ?_
    rcases List.mem_append.mp hp with hmem | hlast
    · have hp : p ∈ trimIdle (parts path) := by
        rw [htrim, hrest]
        exact List.mem_append_left _ (List.mem_append_left _ hmem)
      exact slash_not_mem_of_mem_parts (mem_parts_of_trimIdle hp)
    · rwa [List.mem_singleton.mp hlast]
  cases hfront : trimIdle before with
  | nil =>
    rw [hfront, List.nil_append] at hbefore
    subst hbefore
    refine ⟨before.take 1, before.drop 1, ?_, (List.take_append_drop 1 before).symm,
      fun p hp => hidles p (List.mem_of_mem_drop hp), fun hnil => ?_⟩
    · rw [hsibling, hfront]
      exact hkept _ ⟨_, (List.take_append_drop 1 before).symm⟩
    · simpa using hnil
  | cons first others =>
    rw [hfront] at hbefore
    refine ⟨first :: others, idle, ?_, hbefore, hidles, nofun⟩
    rw [hsibling, hfront]
    exact hkept _ ⟨idle, hbefore⟩

end ClaimTree.Files
