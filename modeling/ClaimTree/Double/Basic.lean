namespace ClaimTree

/-- The number `mantissa * 2 ^ exponent`. -/
structure Double where
  mantissa : Nat
  exponent : Int
deriving DecidableEq

namespace Double

def lowestExponent : Int := -1074

def zero : Double := ⟨0, lowestExponent⟩

/-- The nearest whole number to a quotient; a tie goes to the even one. -/
def roundDiv (n d : Nat) : Nat :=
  let q := n / d
  let r := n % d
  if 2 * r < d ∨ 2 * r = d ∧ q % 2 = 0 then q else q + 1

/-- `n / d / 2 ^ e`, as numerator and denominator. -/
def scaled (n d : Nat) (e : Int) : Nat × Nat := (n <<< (-e).toNat, d <<< e.toNat)

/-- The greatest power of two that is at most `n / d`. -/
def log2Ratio (n d : Nat) : Int :=
  let e : Int := n.log2 - d.log2
  let (n, d) := scaled n d e
  if n < d then e - 1 else e

/-- The nearest double to a ratio; a tie goes to the even mantissa. -/
def ofRatio (n d : Nat) : Double :=
  if n = 0 then zero
  else
    let e := max lowestExponent (log2Ratio n d - 52)
    let (n, d) := scaled n d e
    let m := roundDiv n d
    if m < 1 <<< 53 then ⟨m, e⟩ else ⟨1 <<< 52, e + 1⟩

/-- The number as numerator and denominator. -/
def ratio (x : Double) : Nat × Nat := scaled x.mantissa 1 (-x.exponent)

def mul (x y : Double) : Double :=
  ofRatio (x.ratio.1 * y.ratio.1) (x.ratio.2 * y.ratio.2)

def div (x y : Double) : Double :=
  ofRatio (x.ratio.1 * y.ratio.2) (x.ratio.2 * y.ratio.1)

/-- Larger numbers have no place in 64 bits. -/
def isFinite (x : Double) : Bool := x.exponent ≤ 971

/-- A power of ten. -/
def tenPow (e : Nat) : Double := ofRatio (Nat.pow 10 e) 1

/-- The double that stands for `significand * 10 ^ e`, unless that is too large. It is scaled by
powers of ten of at most 308, and rounded behind each. -/
def ofDecimal? (significand : Nat) (e : Int) : Option Double :=
  let x := ofRatio significand 1
  match e with
  | .ofNat e =>
    if significand = 0 then some zero
    else if 308 < e then none
    else some (x.mul (tenPow e)) |>.filter isFinite
  | .negSucc e =>
    let e := e + 1
    if e ≤ 308 then some (x.div (tenPow e))
    else if e ≤ 616 then some ((x.div (tenPow 308)).div (tenPow (e - 308)))
    else some zero

end Double

end ClaimTree
