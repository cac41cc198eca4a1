import ClaimTree.Bytes

namespace ClaimTree.Keccak

/-- Lane `(x, y)` stands at place `x + 5 * y`. -/
abbrev Lanes := Vector UInt64 25

def lane (a : Lanes) (x y : Nat) : UInt64 := a.get ⟨x % 5 + 5 * (y % 5), by omega⟩

def tabulate (f : Nat → Nat → UInt64) : Lanes :=
  Vector.ofFn fun i => f (i.val % 5) (i.val / 5)

def rotate (w n : UInt64) : UInt64 := w <<< n ||| w >>> (64 - n)

/-- Adds to every lane the parities of the two columns beside its own. -/
def theta (a : Lanes) : Lanes :=
  let parity : Vector UInt64 5 := Vector.ofFn fun x =>
    lane a x 0 ^^^ lane a x 1 ^^^ lane a x 2 ^^^ lane a x 3 ^^^ lane a x 4
  let column (x : Nat) : UInt64 := parity.get ⟨x % 5, by omega⟩
  let change : Vector UInt64 5 := Vector.ofFn fun x => column (x + 4) ^^^ rotate (column (x + 1)) 1
  a.mapFinIdx fun i w _ => w ^^^ change.get ⟨i % 5, by omega⟩

def offsets : Vector UInt64 25 :=
  #v[0, 1, 62, 28, 27, 36, 44, 6, 55, 20, 3, 10, 43, 25, 39, 41, 45, 15, 21, 8, 18, 2, 61, 56, 14]

/-- Turns every lane by its own offset and moves it to its new place. -/
def rhoPi (a : Lanes) : Lanes :=
  tabulate fun x y => rotate (lane a (x + 3 * y) x) (lane offsets (x + 3 * y) x)

/-- The one step that is not linear: it runs along the rows. -/
def chi (a : Lanes) : Lanes :=
  tabulate fun x y => lane a x y ^^^ (~~~(lane a (x + 1) y) &&& lane a (x + 2) y)

def iota (c : UInt64) (a : Lanes) : Lanes := a.set 0 (a[0] ^^^ c)

def roundConstants : List UInt64 :=
  [0x0000000000000001, 0x0000000000008082, 0x800000000000808A, 0x8000000080008000,
   0x000000000000808B, 0x0000000080000001, 0x8000000080008081, 0x8000000000008009,
   0x000000000000008A, 0x0000000000000088, 0x0000000080008009, 0x000000008000000A,
   0x000000008000808B, 0x800000000000008B, 0x8000000000008089, 0x8000000000008003,
   0x8000000000008002, 0x8000000000000080, 0x000000000000800A, 0x800000008000000A,
   0x8000000080008081, 0x8000000000008080, 0x0000000080000001, 0x8000000080008008]

def permute (a : Lanes) : Lanes :=
  roundConstants.foldl (fun a c => iota c (chi (rhoPi (theta a)))) a

/-- The number of bytes that the sponge takes in at a time. -/
def rate : Nat := 136

/-- The message and its padding, which starts with the byte 1 and ends with the byte 128. -/
def pad (message : List UInt8) : List UInt8 :=
  match rate - message.length % rate with
  | 1 => message ++ [0x81]
  | n => message ++ 0x01 :: List.replicate (n - 2) 0 ++ [0x80]

/-- A lane from its bytes, least significant first. -/
def word (bs : List UInt8) : UInt64 :=
  bs.foldr (fun b w => w <<< 8 ||| b.toUInt64) 0

def mix (block : List UInt8) (a : Lanes) : Lanes :=
  a.mapFinIdx fun i w _ => w ^^^ word ((block.drop (8 * i)).take 8)

def absorb : Nat → List UInt8 → Lanes → Lanes
  | 0, _, a => a
  | n + 1, message, a => absorb n (message.drop rate) (permute (mix (message.take rate) a))

/-- The first 32 bytes of the lanes. -/
def squeeze (a : Lanes) : Bytes 32 where
  toList := (List.range 32).map fun i => (lane a (i / 8) 0 >>> UInt64.ofNat (8 * (i % 8))).toUInt8
  length_toList := by simp

end ClaimTree.Keccak

namespace ClaimTree

/-- The Keccak-256 digest of a message. -/
def keccak256 (message : List UInt8) : Bytes 32 :=
  let padded := Keccak.pad message
  Keccak.squeeze (Keccak.absorb (padded.length / Keccak.rate) padded (Vector.replicate 25 0))

end ClaimTree
