import ClaimTree.FieldError
import ClaimTree.Text.Hex

namespace ClaimTree

/-- An unsigned integer of 256 bits as its bytes, most significant first. -/
@[ext] structure Uint256 where
  bytes : Bytes 32
deriving DecidableEq

namespace Uint256

instance : Ord Uint256 where
  compare a b := compare a.bytes b.bytes

def zero : Uint256 := ⟨Bytes.zero 32⟩

def toBytes (n : Uint256) : Bytes 32 := n.bytes

def ofBytes (b : Bytes 32) : Uint256 := ⟨b⟩

/-- The number that the bytes denote. -/
def val (n : Uint256) : Nat := n.bytes.toNat

/-- The eight bytes of the number behind zeros. -/
def ofUInt64 (n : UInt64) : Uint256 :=
  let tail := (Bytes.ofNat 8 n.toNat).toList
  ⟨((Bytes.zero 32).copyTail? (32 - 8) tail (fun _ => by simp [tail, Bytes.length_toList])).getD
    (Bytes.zero 32)⟩

/-- How many binary digits a number has; zero has none. -/
def bits (v : Nat) : Nat := if v = 0 then 0 else Nat.log2 v + 1

/-- The integer of a number, written by `text`: its fewest bytes behind zeros. -/
def fromNat (v : Nat) (text : String) : Except FieldError Uint256 :=
  if 256 < bits v then .error (.overflow text)
  else
    let tail := Bytes.minimal v
    if hlength : tail.length ≤ 32 then
      match (Bytes.zero 32).copyTail? (32 - tail.length) tail
        (fun _ => Nat.sub_add_cancel hlength) with
      | some bytes => .ok ⟨bytes⟩
      | none => .error (.overflow text)
    else .error (.overflow text)

/-- What stands behind the marker of a base, if there is one, and the base. -/
def unmarked : List Char → List Char × Nat
  | '0' :: 'x' :: digits => (digits, 16)
  | '0' :: 'X' :: digits => (digits, 16)
  | digits => (digits, 10)

/-- The integer that a text writes. The digits are judged before they are read, since the reader of
large numbers would also take a sign and separators. -/
def parse (text : String) : Except FieldError Uint256 :=
  let (digits, base) := unmarked (Text.trim text.toList)
  if !Text.isNumeral base digits then .error (.integer text)
  else
    match Text.looseNumber? base digits with
    | none => .error (.integer text)
    | some v => fromNat v text

/-- The shortest hexadecimal text. -/
def text (n : Uint256) : String := String.ofList ('0' :: 'x' :: Nat.toDigits 16 n.val)

/-- The shortest decimal text. -/
def decimal (n : Uint256) : String := String.ofList (Nat.toDigits 10 n.val)

/-- The text with the name of the type around it. -/
def labelled (n : Uint256) : String := s!"Uint256({n.text})"

end Uint256

end ClaimTree
