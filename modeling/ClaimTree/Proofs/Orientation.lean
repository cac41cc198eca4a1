import ClaimTree.Proofs.Text.Hex
import ClaimTree.Tree.Path

namespace ClaimTree

theorem Orientation.parse_text (o : Orientation) : parse o.text = .ok o := by
  rw [parse, text, Text.fixedHex?_hexText]

theorem Orientation.exists_ofFlags {flags : List Bool} (hlength : flags.length ≤ 32) :
    ∃ o : Orientation, ofFlags flags = .ok o ∧ o.flags flags.length = flags := by
  refine ⟨_, dif_pos hlength, ?_⟩
  have hbyte : ((· != 0) ∘ fun b : Bool => if b then (1 : UInt8) else 0) = id := by
    funext b
    cases b <;> rfl
  have htake : ∀ rest : List UInt8,
      (flags.map (fun b => if b then (1 : UInt8) else 0) ++ rest).take flags.length =
        flags.map fun b => if b then 1 else 0 := by
    intro rest
    exact List.take_left' (List.length_map _)
  rw [Orientation.flags, htake, List.map_map, hbyte, List.map_id]

theorem Orientation.toList_of_ofFlags {flags : List Bool} {o : Orientation}
    (h : ofFlags flags = .ok o) :
    flags.length ≤ 32 ∧ o.bytes.toList =
      flags.map (fun b => if b then 1 else 0) ++ List.replicate (32 - flags.length) 0 := by
  rw [ofFlags] at h
  split at h
  · next hlength =>
    obtain rfl := Except.ok.inj h
    exact ⟨hlength, rfl⟩
  · cases h

theorem Orientation.flags_of_ofFlags {flags : List Bool} {o : Orientation}
    (h : ofFlags flags = .ok o) : o.flags flags.length = flags := by
  obtain ⟨o', ho', hflags⟩ := exists_ofFlags (toList_of_ofFlags h).1
  obtain rfl := Except.ok.inj (h.symm.trans ho')
  exact hflags

/-- A side that is not there is packed as one on the right. -/
theorem Orientation.getElem?_of_ofFlags {flags : List Bool} {o : Orientation}
    (h : ofFlags flags = .ok o) {level : Nat} (hlevel : level < 32) :
    o.bytes.toList[level]? = some (if flags[level]?.getD false then 1 else 0) := by
  obtain ⟨hlength, hbytes⟩ := toList_of_ofFlags h
  rw [hbytes]
  rcases Nat.lt_or_ge level flags.length with hflag | hrest
  · rw [List.getElem?_append_left (by simpa using hflag), List.getElem?_map,
      List.getElem?_eq_getElem hflag]
    rfl
  · rw [List.getElem?_append_right (by simpa using hrest), List.getElem?_eq_none hrest,
      List.length_map, List.getElem?_replicate_of_lt (by omega)]
    rfl

theorem Orientation.ofFlags_eq_error_iff {flags : List Bool} {e : TreeError} :
    ofFlags flags = .error e ↔ 32 < flags.length ∧ e = .pathTooLong flags.length := by
  rw [ofFlags]
  split
  · next hlength => exact iff_of_false nofun fun h => Nat.not_lt.mpr hlength h.1
  · next hlength =>
    rw [Except.error.injEq, and_iff_right (Nat.lt_of_not_le hlength)]
    exact eq_comm

namespace Path

theorem zip_siblings_sides (path : Path) : Path.zip path.siblings path.sides = path := by
  induction path with
  | nil => rfl
  | cons step rest ih => exact congrArg (List.cons step) ih

theorem length_siblings (path : Path) : path.siblings.length = path.length := List.length_map _

theorem length_sides (path : Path) : path.sides.length = path.length := List.length_map _

end Path

end ClaimTree
