import ClaimTree.Json.Reader

namespace ClaimTree.Json

/-- A field of a draft `δ`, the value as far as it has been read. -/
structure Field (δ : Type) where
  key : String
  isFilled : δ → Bool
  read : δ → Reader δ

/-- A field that is kept as an option in the draft. -/
def Field.ofSlot {δ α : Type} (key : String) (slot : δ → Option α) (fill : δ → α → δ)
    (value : Reader α) : Field δ where
  key
  isFilled := fun draft => (slot draft).isSome
  read := fun draft s => do
    let (a, s) ← value s
    return (fill draft a, s)

/-- The fields of a type, what a draft holds at the start, and how it is completed at the end. -/
structure Shape (δ α : Type) where
  blank : δ
  fields : List (Field δ)
  complete : δ → Option α

namespace Shape

variable {δ α : Type}

/-- Reads the elements of an array as the fields in their order. -/
def readElements : (fields : List (Field δ)) → (isFirst : Bool) → δ → Reader δ
  | [], _, draft, s => do
    match skipSpace s with
    | [] => .error .truncated
    | ']' :: s => return (draft, s)
    | _ => .error .malformed
  | field :: fields, isFirst, draft, s => do
    match ← nextElement isFirst s with
    | .closed s => return (draft, s)
    | .part s =>
      let (draft, s) ← field.read draft s
      readElements fields false draft s

/-- Reads the value of the member with this key. -/
def readMember (fields : List (Field δ)) (key : String) (draft : δ) : Reader δ := fun s =>
  match fields.find? (·.key = key) with
  | some field =>
    if field.isFilled draft then .error .mistyped
    else do
      let s ← takeColon s
      field.read draft s
  | none => do
    let s ← takeColon s
    let s ← passValue s
    return (draft, s)

/-- Reads members up to the closing bracket. Every member takes at least one character, so the text
is at its end when the characters that count the steps are used up. -/
def readMembers (fields : List (Field δ)) :
    (steps : List Char) → (isFirst : Bool) → δ → Reader δ
  | [], _, _, _ => .error .truncated
  | _ :: steps, isFirst, draft, s => do
    match ← nextKey isFirst s with
    | .closed s => return (draft, s)
    | .part s =>
      let (key, s) ← readQuoted s
      let (draft, s) ← readMember fields (String.ofList key) draft s
      readMembers fields steps false draft s

/-- Completes a draft when its closing bracket has been reached. -/
def finish (shape : Shape δ α) (read : δ × List Char) : Except Fault (α × List Char) :=
  match shape.complete read.1 with
  | some a => .ok (a, read.2)
  | none => .error .mistyped

def read (shape : Shape δ α) : Reader α := fun s =>
  match skipSpace s with
  | '[' :: s => do shape.finish (← readElements shape.fields true shape.blank s)
  | '{' :: s => do shape.finish (← readMembers shape.fields s true shape.blank s)
  | s => .error (wrongKind s)

end Shape

end ClaimTree.Json
