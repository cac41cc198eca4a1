import ClaimTree.Bytes
import ClaimTree.Text.Blank
import ClaimTree.Text.Digit

namespace ClaimTree.Text

/-- What is left of a text behind its hexadecimal marker, if it has one. -/
def dropMarker : List Char → List Char
  | '0' :: 'x' :: s => s
  | '0' :: 'X' :: s => s
  | s => s

/-- The two digits of a byte, the high half first. -/
def hexPair (b : UInt8) : List Char :=
  [Nat.digitChar (b.toNat / 16), Nat.digitChar (b.toNat % 16)]

def hexDigits (bs : List UInt8) : List Char := bs.flatMap hexPair

/-- The bytes that a row of digits writes. -/
def hexBytes? : List Char → Option (List UInt8)
  | [] => some []
  | [_] => none
  | h :: l :: s => do
    let high ← digit? h
    let low ← digit? l
    let rest ← hexBytes? s
    return UInt8.ofNat (high * 16 + low) :: rest

/-- Reads exactly `n` bytes. -/
def fixedHex? (n : Nat) (text : String) : Option (Bytes n) :=
  (hexBytes? (dropMarker (trim text.toList))).bind (Bytes.ofList? n)

/-- The digits of a byte string behind the marker. -/
def hexText (bs : List UInt8) : String := String.ofList ('0' :: 'x' :: hexDigits bs)

end ClaimTree.Text
