import ClaimTree.Json.Fault
import ClaimTree.Text.Digit

namespace ClaimTree.Json

/-- The character that a one-letter escape stands for. -/
def escaped? : Char → Option Char
  | '"' => some '"'
  | '\\' => some '\\'
  | '/' => some '/'
  | 'b' => some '\x08'
  | 'f' => some '\x0c'
  | 'n' => some '\n'
  | 'r' => some '\r'
  | 't' => some '\t'
  | _ => none

def isLeading (n : Nat) : Bool := 0xD800 ≤ n && n ≤ 0xDBFF

def isTrailing (n : Nat) : Bool := 0xDC00 ≤ n && n ≤ 0xDFFF

/-- The character that a surrogate pair stands for. -/
def paired (leading trailing : Nat) : Char :=
  Char.ofNat ((leading - 0xD800) * 0x400 + (trailing - 0xDC00) + 0x10000)

/-- The number that four digits write. -/
def unit? (a b c d : Char) : Except Fault Nat :=
  match Text.number? 16 [a, b, c, d] with
  | some n => .ok n
  | none => .error .malformed

/-- The number of bytes that a text takes up. -/
def byteCount (s : List Char) : Nat := s.foldl (fun n c => n + c.utf8Size) 0

/-- The fault of an escape with fewer than four characters behind it: the text counts as ended
when there are fewer than four bytes. -/
def shortUnit (s : List Char) : Fault :=
  if byteCount s < 4 then .truncated else .malformed

/-- Reads a string up to its closing mark; the opening one has been read. -/
def readQuoted : Reader (List Char)
  | [] => .error .truncated
  | '"' :: s => .ok ([], s)
  | '\\' :: [] => .error .truncated
  | '\\' :: 'u' :: a :: b :: c :: d :: s => do
    let n ← unit? a b c d
    if isTrailing n then .error .malformed
    else if isLeading n then
      match s with
      | [] => .error .truncated
      | '\\' :: [] => .error .truncated
      | '\\' :: 'u' :: e :: f :: g :: h :: s => do
        let m ← unit? e f g h
        if isTrailing m then
          let (text, s) ← readQuoted s
          return (paired n m :: text, s)
        else .error .malformed
      | '\\' :: 'u' :: s => .error (shortUnit s)
      | _ => .error .malformed
    else
      let (text, s) ← readQuoted s
      return (Char.ofNat n :: text, s)
  | '\\' :: 'u' :: s => .error (shortUnit s)
  | '\\' :: c :: s =>
    match escaped? c with
    | some c => do
      let (text, s) ← readQuoted s
      return (c :: text, s)
    | none => .error .malformed
  | c :: s =>
    if c.toNat < 0x20 then .error .malformed
    else do
      let (text, s) ← readQuoted s
      return (c :: text, s)

/-- Passes over a string up to its closing mark, whatever the surrogates in it. -/
def passQuoted : List Char → Except Fault (List Char)
  | [] => .error .truncated
  | '"' :: s => .ok s
  | '\\' :: [] => .error .truncated
  | '\\' :: 'u' :: a :: b :: c :: d :: s => do
    let _ ← unit? a b c d
    passQuoted s
  | '\\' :: 'u' :: s => .error (shortUnit s)
  | '\\' :: c :: s => if (escaped? c).isSome then passQuoted s else .error .malformed
  | c :: s => if c.toNat < 0x20 then .error .malformed else passQuoted s

/-- A character as it is written inside a string. -/
def escape (c : Char) : List Char :=
  match c with
  | '"' => ['\\', '"']
  | '\\' => ['\\', '\\']
  | '\x08' => ['\\', 'b']
  | '\t' => ['\\', 't']
  | '\n' => ['\\', 'n']
  | '\x0c' => ['\\', 'f']
  | '\r' => ['\\', 'r']
  | c =>
    if c.toNat < 0x20 then
      ['\\', 'u', '0', '0', Nat.digitChar (c.toNat / 16), Nat.digitChar (c.toNat % 16)]
    else [c]

/-- A string as it is written, quotation marks included. -/
def quote (s : List Char) : List Char := '"' :: s.flatMap escape ++ ['"']

end ClaimTree.Json
