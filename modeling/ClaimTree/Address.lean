import ClaimTree.FieldError
import ClaimTree.Keccak
import ClaimTree.Text.Hex

namespace ClaimTree

@[ext] structure Address where
  bytes : Bytes 20
deriving DecidableEq

namespace Address

instance : Ord Address where
  compare a b := compare a.bytes b.bytes

def zero : Address := ⟨Bytes.zero 20⟩

def parse (text : String) : Except FieldError Address :=
  match Text.fixedHex? 20 text with
  | none => .error (.address text)
  | some b => .ok ⟨b⟩

/-- The halves of the bytes, high before low. -/
def nibbles (bs : List UInt8) : List Nat :=
  bs.flatMap fun b => [b.toNat / 16, b.toNat % 16]

/-- The lowercase digits. -/
def digits (a : Address) : List Char := Text.hexDigits a.bytes.toList

/-- The digest that decides on the case of each digit. -/
def caseDigest (a : Address) : Bytes 32 :=
  keccak256 (a.digits.map fun c => UInt8.ofNat c.toNat)

/-- Upper case where the nibble is at least eight; decimal digits have no case. -/
def recase (c : Char) (nibble : Nat) : Char := if 8 ≤ nibble then c.toUpper else c

def checksumDigits (a : Address) : List Char :=
  List.zipWith recase a.digits (nibbles a.caseDigest.toList)

/-- The text with the check of EIP-55 in the case of its letters. -/
def checksum (a : Address) : String := String.ofList ('0' :: 'x' :: a.checksumDigits)

/-- The text with the name of the type around it. -/
def labelled (a : Address) : String := s!"Address({a.checksum})"

end Address

end ClaimTree
