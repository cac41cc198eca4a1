namespace ClaimTree

/-- A string of exactly `n` bytes. -/
@[ext] structure Bytes (n : Nat) where
  toList : List UInt8
  length_toList : toList.length = n
deriving DecidableEq

namespace Bytes

/-- The number that a list of bytes denotes, most significant byte first. -/
def value (bs : List UInt8) : Nat :=
  bs.foldl (fun v b => v * 256 + b.toNat) 0

/-- The lowest `n` base-256 digits of a number, most significant first. -/
def digits : Nat → Nat → List UInt8
  | 0, _ => []
  | n + 1, v => UInt8.ofNat (v >>> (8 * n)) :: digits n v

@[simp] theorem length_digits (n v : Nat) : (digits n v).length = n := by
  induction n with
  | zero => rfl
  | succ n ih => simp [digits, ih]

def ofNat (n v : Nat) : Bytes n := ⟨digits n v, length_digits n v⟩

def toNat {n : Nat} (b : Bytes n) : Nat := value b.toList

/-- The number of byte strings of length `n`. -/
def count (n : Nat) : Nat := Nat.pow 256 n

theorem count_succ (n : Nat) : count (n + 1) = count n * 256 := rfl

theorem value_lt (bs : List UInt8) : value bs < count bs.length := by
  suffices h : ∀ v, bs.foldl (fun v b => v * 256 + b.toNat) v < (v + 1) * count bs.length by
    simpa [value] using h 0
  induction bs with
  | nil => simp [count]
  | cons b bs ih =>
    intro v
    have hb : b.toNat < 256 := b.toNat_lt
    calc (b :: bs).foldl (fun v b => v * 256 + b.toNat) v
        < (v * 256 + b.toNat + 1) * count bs.length := ih _
      _ ≤ ((v + 1) * 256) * count bs.length := Nat.mul_le_mul_right _ (by omega)
      _ = (v + 1) * count (b :: bs).length := by
        rw [List.length_cons, count_succ, Nat.mul_assoc, Nat.mul_comm 256]

theorem toNat_lt {n : Nat} (b : Bytes n) : b.toNat < count n := by
  simpa only [toNat, b.length_toList] using value_lt b.toList

def zero (n : Nat) : Bytes n := ⟨List.replicate n 0, by simp⟩

/-- The base-256 digits of a number, least significant first and without zeros at the end. There
are no more than `fuel` of them, and a number has no more digits than itself. -/
def lowDigits : (fuel : Nat) → Nat → List UInt8
  | 0, _ => []
  | fuel + 1, v => if v = 0 then [] else UInt8.ofNat v :: lowDigits fuel (v / 256)

/-- The fewest bytes that write a number, most significant first. Zero is written by one byte. -/
def minimal (v : Nat) : List UInt8 :=
  if v = 0 then [0] else (lowDigits v v).reverse

/-- Replaces the bytes from `offset` on by as many others, unless `offset` is beyond the end. -/
def copyTail? {n : Nat} (b : Bytes n) (offset : Nat) (tail : List UInt8)
    (hlength : offset ≤ n → offset + tail.length = n) : Option (Bytes n) :=
  if h : offset ≤ n then
    some ⟨b.toList.take offset ++ tail, by
      rw [List.length_append, List.length_take, b.length_toList, Nat.min_eq_left h, hlength h]⟩
  else none

/-- The bytes themselves, if there are exactly `n` of them. -/
def ofList? (n : Nat) (bs : List UInt8) : Option (Bytes n) :=
  if h : bs.length = n then some ⟨bs, h⟩ else none

/-- Byte strings are ordered by their first difference. -/
instance {n : Nat} : Ord (Bytes n) where
  compare a b := List.compareLex compare a.toList b.toList

end Bytes

end ClaimTree
