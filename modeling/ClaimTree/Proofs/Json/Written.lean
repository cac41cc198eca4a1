import Mathlib.Data.List.Forall2
import ClaimTree.Proofs.Json.Members

namespace ClaimTree.Json

variable {α δ : Type}

/-- Written in whatever layout and at whatever depth, the value `v` is read as `a`. -/
def Recovers (value : Reader α) (v : Json) (a : α) : Prop :=
  ∀ layout depth, Reads value (v.write layout depth) a

/-- An element as it is written between the commas. -/
def writeElement (layout : Layout) (depth : Nat) (v : Json) : List Char :=
  layout.lineBreak depth ++ v.write layout depth

/-- A member as it is written between the commas. -/
def writeMember (layout : Layout) (depth : Nat) (m : String × Json) : List Char :=
  layout.lineBreak depth ++ (quote m.1.toList ++ (layout.colon ++ m.2.write layout depth))

theorem writeElements_eq_separated (layout : Layout) (depth : Nat) (es : List Json) :
    writeElements layout depth es = separated false (es.map (writeElement layout depth)) := by
  induction es with
  | nil => rw [writeElements]; rfl
  | cons e es ih =>
    rw [writeElements, ih, List.map_cons, separated, comma, writeElement]
    simp

theorem writeMembers_eq_separated (layout : Layout) (depth : Nat) (ms : List (String × Json)) :
    writeMembers layout depth ms = separated false (ms.map (writeMember layout depth)) := by
  induction ms with
  | nil => rw [writeMembers]; rfl
  | cons m ms ih =>
    rw [writeMembers, ih, List.map_cons, separated, comma, writeMember]
    simp

theorem write_array (layout : Layout) (depth : Nat) (es : List Json) :
    ∃ after, Spaces after ∧ write layout depth (.array es) =
      '[' :: (separated true (es.map (writeElement layout (depth + 1))) ++ (after ++ [']'])) := by
  cases es with
  | nil => exact ⟨[], spaces_nil, by rw [write]; rfl⟩
  | cons e es =>
    refine ⟨layout.lineBreak depth, spaces_lineBreak layout depth, ?_⟩
    rw [write, writeElements_eq_separated, List.map_cons, separated, comma, writeElement]
    simp

theorem write_object (layout : Layout) (depth : Nat) (ms : List (String × Json)) :
    ∃ after, Spaces after ∧ write layout depth (.object ms) =
      '{' :: (separated true (ms.map (writeMember layout (depth + 1))) ++ (after ++ ['}'])) := by
  cases ms with
  | nil => exact ⟨[], spaces_nil, by rw [write]; rfl⟩
  | cons m ms =>
    refine ⟨layout.lineBreak depth, spaces_lineBreak layout depth, ?_⟩
    rw [write, writeMembers_eq_separated, List.map_cons, separated, comma, writeMember]
    simp

namespace Recovers

theorem string (text : String) : Recovers readString (.string text) text := by
  intro layout depth
  rw [write]
  exact Reads.string text

theorem text {ε : Type} {parse : String → Except ε α} {text : String} {a : α}
    (h : parse text = .ok a) : Recovers (readText parse) (.string text) a := by
  intro layout depth
  rw [write]
  exact Reads.text h

theorem count (n : UInt64) : Recovers readCount (.integer n.toNat) n := by
  intro layout depth
  rw [write]
  exact Reads.count n

/-- A string is never taken for the mark of an absent value. -/
theorem present {value : Reader α} {text : String} {a : α}
    (h : Recovers value (.string text) a) :
    Recovers (readOption value) (.string text) (some a) := by
  intro layout depth
  refine (h layout depth).present fun s hs => ?_
  rw [write, quote, List.cons_append, skipSpace_cons rfl] at hs
  exact absurd (List.cons.inj hs).1 (by decide)

theorem list {element : Reader α} {vs : List Json} {as : List α}
    (h : List.Forall₂ (Recovers element) vs as) : Recovers (readList element) (.array vs) as := by
  intro layout depth
  obtain ⟨after, hafter, hwrite⟩ := write_array layout depth vs
  rw [hwrite]
  refine Reads.list (List.forall₂_map_left_iff.mpr (h.imp fun v a hv => ?_)) hafter
  have hread := (hv layout (depth + 1)).surrounded (spaces_lineBreak layout (depth + 1))
    spaces_nil
  rwa [List.append_nil] at hread

theorem list_map {element : Reader α} {f : α → Json} {as : List α}
    (h : ∀ a ∈ as, Recovers element (f a) a) :
    Recovers (readList element) (.array (as.map f)) as := by
  refine list (List.forall₂_map_left_iff.mpr ?_)
  exact List.forall₂_same.mpr h

end Recovers

namespace Shape

/-- The members `ms` take the draft from `d` to `d'`: each has the key of a field that is not
filled yet, and its value is read there. -/
inductive Filled (fields : List (Field δ)) : List (String × Json) → δ → δ → Prop
  | nil (d : δ) : Filled fields [] d d
  | cons {key : String} {v : Json} {ms : List (String × Json)} {field : Field δ} {d d' d'' : δ} :
    fields.find? (·.key = key) = some field → field.isFilled d = false →
    Recovers (field.read d) v d' → Filled fields ms d' d'' → Filled fields ((key, v) :: ms) d d''

theorem Fills.of_written {fields : List (Field δ)} {key : String} {v : Json} {field : Field δ}
    {d d' : δ} (hfind : fields.find? (·.key = key) = some field)
    (hempty : field.isFilled d = false) (hv : Recovers (field.read d) v d') (layout : Layout)
    (depth : Nat) : Fills fields (writeMember layout depth (key, v)) d d' := by
  have hlead := spaces_lineBreak layout depth
  cases layout with
  | compact => exact Fills.of_field hfind hempty hlead spaces_nil (hv .compact depth)
  | pretty =>
    have hspace : Spaces [' '] := List.forall_mem_singleton.mpr rfl
    have hvalue := (hv .pretty depth).surrounded hspace spaces_nil
    rw [List.append_nil] at hvalue
    exact Fills.of_field hfind hempty hlead spaces_nil hvalue

theorem Filled.fillsAll {fields : List (Field δ)} {ms : List (String × Json)} {d d' : δ}
    (h : Filled fields ms d d') (layout : Layout) (depth : Nat) :
    FillsAll fields (ms.map (writeMember layout depth)) d d' := by
  induction h with
  | nil d => exact .nil d
  | cons hfind hempty hv _ ih => exact .cons (.of_written hfind hempty hv layout depth) ih

theorem Filled.append {fields : List (Field δ)} {ms ms' : List (String × Json)} {d d' d'' : δ}
    (h : Filled fields ms d d') (h' : Filled fields ms' d' d'') :
    Filled fields (ms ++ ms') d d'' := by
  induction h with
  | nil => exact h'
  | cons hfind hempty hv _ ih => exact .cons hfind hempty hv (ih h')

end Shape

theorem Recovers.object {shape : Shape δ α} {ms : List (String × Json)} {d : δ} {a : α}
    (h : Shape.Filled shape.fields ms shape.blank d) (hcomplete : shape.complete d = some a) :
    Recovers shape.read (.object ms) a := by
  intro layout depth
  obtain ⟨after, hafter, hwrite⟩ := write_object layout depth ms
  rw [hwrite]
  exact Reads.object (h.fillsAll layout (depth + 1)) hcomplete hafter

theorem Recovers.ofSlot {key : String} {slot : δ → Option α} {fill : δ → α → δ}
    {value : Reader α} {v : Json} {a : α} (h : Recovers value v a) (d : δ) :
    Recovers ((Field.ofSlot key slot fill value).read d) v (fill d a) :=
  fun layout depth => (h layout depth).ofSlot d

/-- A written document is read as the value that it writes. -/
theorem Recovers.readDocument_text {value : Reader α} {v : Json} {a : α} (h : Recovers value v a)
    (layout : Layout) : readDocument value (v.text layout) = .ok a := by
  refine Reads.readDocument ?_
  rw [Json.text, String.toList_ofList]
  exact h layout 0

end ClaimTree.Json
