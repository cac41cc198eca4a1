import ClaimTree.ClaimError
import ClaimTree.Text.Hex

namespace ClaimTree

/-- The sides of a path, one byte a level from the leaf upwards: 1 where the sibling is on the left,
and 0 elsewhere. -/
@[ext] structure Orientation where
  bytes : Bytes 32
deriving DecidableEq

namespace Orientation

def parse (text : String) : Except FieldError Orientation :=
  match Text.fixedHex? 32 text with
  | none => .error (.node text)
  | some b => .ok ⟨b⟩

def text (o : Orientation) : String := Text.hexText o.bytes.toList

/-- The text with the name of the type around it. -/
def labelled (o : Orientation) : String := s!"EncodedOrientation({o.text})"

/-- The sides of the first levels, of at most 32; every byte but 0 is taken for the left side. -/
def flags (o : Orientation) (depth : Nat) : List Bool :=
  (o.bytes.toList.take depth).map (· != 0)

def ofFlags (flags : List Bool) : Except TreeError Orientation :=
  if h : flags.length ≤ 32 then
    .ok ⟨⟨flags.map (fun b => if b then 1 else 0) ++ List.replicate (32 - flags.length) 0,
      by simp; omega⟩⟩
  else .error (.pathTooLong flags.length)

end Orientation

end ClaimTree
