import ClaimTree.Keccak
import ClaimTree.Uint256

namespace ClaimTree

/-- A node of a hash tree: the digest of a leaf, or that of two nodes below. -/
@[ext] structure Node where
  bytes : Bytes 32
deriving DecidableEq

namespace Node

instance : Ord Node where
  compare a b := compare a.bytes b.bytes

/-- The node of a number: its bytes, most significant first. -/
def ofUint256 (n : Uint256) : Node := ⟨n.toBytes⟩

def parse (text : String) : Except FieldError Node :=
  match Text.fixedHex? 32 text with
  | none => .error (.node text)
  | some b => .ok ⟨b⟩

def text (n : Node) : String := Text.hexText n.bytes.toList

/-- The text with the name of the type around it. -/
def labelled (n : Node) : String := s!"Node({n.text})"

/-- The message whose digest is the node above a left and a right node. -/
def pairMessage (left right : Node) : List UInt8 := left.bytes.toList ++ right.bytes.toList

/-- The node above a left and a right node. -/
def combine (left right : Node) : Node := ⟨keccak256 (pairMessage left right)⟩

end Node

end ClaimTree
