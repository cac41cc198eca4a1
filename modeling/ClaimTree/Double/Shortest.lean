import ClaimTree.Double.Basic

namespace ClaimTree.Double

/-- A decimal number `digits * 10 ^ exponent`. -/
structure Decimal where
  digits : Nat
  exponent : Int

/-- The ends of the range of numbers that round to a double, in quarters of its last place. The
place below a power of two is half as wide. -/
def bounds (x : Double) : Nat × Nat :=
  let m := 4 * x.mantissa
  (if x.mantissa = 1 <<< 52 ∧ lowestExponent < x.exponent then m - 1 else m - 2, m + 2)

/-- Whether a decimal number rounds to a double; the ends of the range do if the mantissa is
even. -/
def isNear (x : Double) (v : Decimal) : Bool :=
  -- both sides over a common denominator, in quarters of the last place
  let (n, d) := scaled (v.digits * Nat.pow 10 v.exponent.toNat) (Nat.pow 10 (-v.exponent).toNat)
    (x.exponent - 2)
  let (low, high) := x.bounds
  if x.mantissa % 2 = 0 then low * d ≤ n && n ≤ high * d else low * d < n && n < high * d

/-- The greatest power of ten that is at most `n / d`, for a ratio that is not zero. -/
def log10Ratio (n d : Nat) : Int :=
  if d ≤ n then ((Nat.toDigits 10 (n / d)).length : Int) - 1
  else -((Nat.toDigits 10 ((d - 1) / n)).length : Int)

/-- The ratio of a double to a power of ten, as numerator and denominator. -/
def inPlaces (x : Double) (place : Int) : Nat × Nat :=
  (x.ratio.1 * Nat.pow 10 (-place).toNat, x.ratio.2 * Nat.pow 10 place.toNat)

/-- The numbers next to a double, below and above it, with the given last place; the nearer one
stands first, and the even one if they are equally near. -/
def neighbours (x : Double) (place : Int) : List Decimal :=
  let (n, d) := x.inPlaces place
  let near := roundDiv n d
  let far := if near * d ≤ n then near + 1 else near - 1
  [⟨near, place⟩, ⟨far, place⟩]

/-- Tries ever more digits, and at most 17, which are always enough. -/
def shortestFrom (x : Double) : (more : Nat) → Int → Decimal
  | 0, place => ⟨roundDiv (x.inPlaces place).1 (x.inPlaces place).2, place⟩
  | more + 1, place =>
    match (x.neighbours place).find? x.isNear with
    | some v => v
    | none => shortestFrom x more (place - 1)

def shortest (x : Double) : Decimal :=
  if x.mantissa = 0 then ⟨0, 0⟩
  else
    let v := shortestFrom x 16 (log10Ratio x.ratio.1 x.ratio.2)
    -- a single digit may have been rounded up to the next power of ten
    if v.digits = 10 then ⟨1, v.exponent + 1⟩ else v

/-- An exponent, always with its sign. -/
def exponentText (e : Int) : List Char :=
  (if e < 0 then '-' else '+') :: Nat.toDigits 10 e.natAbs

/-- The digits with a point in them from 0.00001 up to 16 places before the point, and with an
exponent otherwise. -/
def text (x : Double) : List Char :=
  let v := x.shortest
  let ds := Nat.toDigits 10 v.digits
  let point : Int := ds.length + v.exponent
  if x.mantissa = 0 then ['0', '.', '0']
  else if 0 ≤ v.exponent ∧ point ≤ 16 then
    ds ++ List.replicate v.exponent.toNat '0' ++ ['.', '0']
  else if 0 < point ∧ point ≤ 16 then ds.take point.toNat ++ '.' :: ds.drop point.toNat
  else if -5 < point ∧ point ≤ 0 then '0' :: '.' :: List.replicate (-point).toNat '0' ++ ds
  else if ds.length = 1 then ds ++ 'e' :: exponentText (point - 1)
  else ds.take 1 ++ '.' :: ds.drop 1 ++ 'e' :: exponentText (point - 1)

end ClaimTree.Double
