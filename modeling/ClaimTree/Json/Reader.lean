import ClaimTree.Json.Skip

namespace ClaimTree.Json

/-- The fault of finding another kind of value than the one wanted. Strings, numbers and literals
are read first, arrays and objects are refused at their bracket. -/
def wrongKind (s : List Char) : Fault :=
  let judged {α : Type} : Except Fault α → Fault
    | .ok _ => .mistyped
    | .error fault => fault
  match s with
  | [] => .truncated
  | '"' :: s => judged (readQuoted s)
  | 'n' :: s => judged (expect ['u', 'l', 'l'] s)
  | 't' :: s => judged (expect ['r', 'u', 'e'] s)
  | 'f' :: s => judged (expect ['a', 'l', 's', 'e'] s)
  | '[' :: _ => .mistyped
  | '{' :: _ => .mistyped
  | c :: _ =>
    if startsNumeral c then
      judged do
        let (n, _) ← readNumeral s
        n.count
    else .malformed

def readString : Reader String := fun s =>
  match skipSpace s with
  | '"' :: s => do
    let (text, s) ← readQuoted s
    return (String.ofList text, s)
  | s => .error (wrongKind s)

def readCount : Reader UInt64 := fun s =>
  match skipSpace s with
  | [] => .error .truncated
  | c :: s =>
    if startsNumeral c then do
      let (n, s) ← readNumeral (c :: s)
      return (← n.count, s)
    else .error (wrongKind (c :: s))

/-- Reads `null` or a value. -/
def readOption {α : Type} (value : Reader α) : Reader (Option α) := fun s =>
  match skipSpace s with
  | 'n' :: s => do
    let s ← expect ['u', 'l', 'l'] s
    return (none, s)
  | s => do
    let (a, s) ← value s
    return (some a, s)

/-- Reads a string that stands for something else. -/
def readText {ε α : Type} (parse : String → Except ε α) : Reader α := fun s => do
  let (text, s) ← readString s
  match parse text with
  | .ok a => return (a, s)
  | .error _ => .error .mistyped

/-- What follows in an array or an object: its end, or a further part. -/
inductive Next
  | closed (rest : List Char)
  | part (rest : List Char)

/-- What follows in an array, in front of its first element or behind another one. -/
def nextElement (isFirst : Bool) (s : List Char) : Except Fault Next :=
  match skipSpace s with
  | [] => .error .truncated
  | ']' :: s => .ok (.closed s)
  | c :: s =>
    if isFirst then .ok (.part (c :: s))
    else if c = ',' then
      match skipSpace s with
      | [] => .error .truncated
      | ']' :: _ => .error .malformed
      | s => .ok (.part s)
    else .error .malformed

/-- What follows in an object; a further part is handed on behind the mark that opens its key. -/
def nextKey (isFirst : Bool) (s : List Char) : Except Fault Next :=
  match skipSpace s with
  | [] => .error .truncated
  | '}' :: s => .ok (.closed s)
  | c :: s =>
    if isFirst then if c = '"' then .ok (.part s) else .error .malformed
    else if c = ',' then (expect ['"'] (skipSpace s)).map .part
    else .error .malformed

/-- Reads elements up to the closing bracket. Every element takes at least one character, so the
text is at its end when the characters that count the steps are used up. -/
def readElements {α : Type} (element : Reader α) :
    (steps : List Char) → (isFirst : Bool) → Reader (List α)
  | [], _, _ => .error .truncated
  | _ :: steps, isFirst, s => do
    match ← nextElement isFirst s with
    | .closed s => return ([], s)
    | .part s =>
      let (a, s) ← element s
      let (as, s) ← readElements element steps false s
      return (a :: as, s)

def readList {α : Type} (element : Reader α) : Reader (List α) := fun s =>
  match skipSpace s with
  | '[' :: s => readElements element s true s
  | s => .error (wrongKind s)

/-- Reads a whole document: one value with nothing but white space behind it. -/
def readDocument {α : Type} (value : Reader α) (text : String) : Except Fault α := do
  let (a, s) ← value text.toList
  if (skipSpace s).isEmpty then return a else .error .malformed

end ClaimTree.Json
