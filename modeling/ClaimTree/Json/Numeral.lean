import ClaimTree.Double.Basic
import ClaimTree.Json.Fault
import ClaimTree.Text.Digit

namespace ClaimTree.Json

structure Numeral where
  negative : Bool
  whole : List Char
  fraction : Option (List Char)
  /-- Whether the exponent is negative, and its digits. -/
  exponent : Option (Bool × List Char)

def startsNumeral (c : Char) : Bool := c == '-' || Text.isDecimal c

/-- One or more digits. -/
def readDigits (s : List Char) : Except Fault (List Char × List Char) :=
  match s.takeWhile Text.isDecimal, s with
  | [], [] => .error .truncated
  | [], _ => .error .malformed
  | ds, s => .ok (ds, s.dropWhile Text.isDecimal)

/-- One or more digits, of which the first is zero only when it stands alone. -/
def readWhole (s : List Char) : Except Fault (List Char × List Char) := do
  match ← readDigits s with
  | ('0' :: _ :: _, _) => .error .malformed
  | read => .ok read

def readFraction : List Char → Except Fault (Option (List Char) × List Char)
  | '.' :: s => do
    let (ds, s) ← readDigits s
    return (some ds, s)
  | s => .ok (none, s)

def readSign : List Char → Bool × List Char
  | '-' :: s => (true, s)
  | '+' :: s => (false, s)
  | s => (false, s)

def readExponent : List Char → Except Fault (Option (Bool × List Char) × List Char)
  | [] => .ok (none, [])
  | c :: s =>
    if c = 'e' ∨ c = 'E' then do
      let (negative, s) := readSign s
      let (ds, s) ← readDigits s
      return (some (negative, ds), s)
    else .ok (none, c :: s)

def readNumeral (s : List Char) : Except Fault (Numeral × List Char) := do
  let (negative, s) : Bool × List Char := match s with
    | '-' :: s => (true, s)
    | s => (false, s)
  let (whole, s) ← readWhole s
  let (fraction, s) ← readFraction s
  let (exponent, s) ← readExponent s
  return ({ negative, whole, fraction, exponent }, s)

/-- The number that decimal digits write. -/
def decimalValue (ds : List Char) : Nat := Text.positional 10 (ds.map fun c => c.toNat - '0'.toNat)

/-- Reads digits on from `n` as long as the number fits into 64 bits. -/
def gather (n : Nat) : List Char → Nat × List Char
  | [] => (n, [])
  | c :: ds =>
    let m := n * 10 + (c.toNat - '0'.toNat)
    if m < UInt64.size then gather m ds else (n, c :: ds)

namespace Numeral

/-- The size of the number as a double, unless it is too large for one. The leading digits make up
a significand of 64 bits, and the others count only by their number. -/
def toDouble? (n : Numeral) : Option Double :=
  let (whole, dropped) := gather 0 n.whole
  let (significand, unused) := gather whole (n.fraction.getD [])
  let places : Int := dropped.length - ((n.fraction.getD []).length - unused.length : Nat)
  let shift : Int := match n.exponent with
    | none => 0
    | some (negative, ds) => if negative then -decimalValue ds else decimalValue ds
  Double.ofDecimal? significand (places + shift)

/-- Whether the number is written without a fraction and an exponent. -/
def isWhole (n : Numeral) : Bool := n.fraction.isNone && n.exponent.isNone

/-- The number as a count: it has no sign, fraction or exponent and fits into 64 bits. -/
def count (n : Numeral) : Except Fault UInt64 :=
  if n.isWhole && !n.negative && decimalValue n.whole < UInt64.size then
    .ok (UInt64.ofNat (decimalValue n.whole))
  else if n.toDouble?.isNone then .error .malformed
  else .error .mistyped

end Numeral

end ClaimTree.Json
