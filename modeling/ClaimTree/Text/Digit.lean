namespace ClaimTree.Text

def isDecimal (c : Char) : Bool := '0' ≤ c && c ≤ '9'

/-- The value of a hexadecimal digit of either case. -/
def digit? (c : Char) : Option Nat :=
  if '0' ≤ c ∧ c ≤ '9' then some (c.toNat - '0'.toNat)
  else if 'a' ≤ c ∧ c ≤ 'f' then some (c.toNat - 'a'.toNat + 10)
  else if 'A' ≤ c ∧ c ≤ 'F' then some (c.toNat - 'A'.toNat + 10)
  else none

/-- The value of a digit below `base`, for a base of at most sixteen. -/
def digitBelow? (base : Nat) (c : Char) : Option Nat :=
  (digit? c).filter (· < base)

/-- The number that a row of digits denotes, most significant first. -/
def positional (base : Nat) (ds : List Nat) : Nat :=
  ds.foldl (fun v d => v * base + d) 0

/-- The number written by one or more digits below `base` and nothing else. -/
def number? (base : Nat) (s : List Char) : Option Nat :=
  if s.isEmpty then none else (s.mapM (digitBelow? base)).map (positional base)

/-- One or more digits below `base` and nothing else. -/
def isNumeral (base : Nat) (s : List Char) : Bool :=
  !s.isEmpty && s.all fun c => (digitBelow? base c).isSome

/-- What follows a plus sign, unless that is another one. -/
def dropPlus : List Char → List Char
  | '+' :: '+' :: s => '+' :: '+' :: s
  | '+' :: s => s
  | s => s

/-- The number written by digits below `base`, by a reader that also takes a plus sign in front of
them and passes over the underscores behind the first one. -/
def looseNumber? (base : Nat) (s : List Char) : Option Nat :=
  let s := dropPlus s
  if s.isEmpty || s.head? = some '_' then none
  else ((s.filter (· != '_')).mapM (digitBelow? base)).map (positional base)

end ClaimTree.Text
