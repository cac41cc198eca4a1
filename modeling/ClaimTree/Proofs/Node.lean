import ClaimTree.Node
import ClaimTree.Proofs.Uint256

namespace ClaimTree.Node

/-- The number that the bytes of a node denote. -/
def toUint256 (n : Node) : Uint256 := .ofBytes n.bytes

theorem ofUint256_toUint256 (n : Node) : ofUint256 n.toUint256 = n := rfl

theorem toUint256_ofUint256 (n : Uint256) : (ofUint256 n).toUint256 = n := rfl

theorem ofUint256_eq_iff {n : Uint256} {node : Node} : ofUint256 n = node ↔ n = node.toUint256 := by
  constructor
  · rintro rfl
    exact (toUint256_ofUint256 n).symm
  · rintro rfl
    exact ofUint256_toUint256 node

theorem parse_text (n : Node) : parse n.text = .ok n := by
  rw [parse, text, Text.fixedHex?_hexText]

theorem parse_text_uint256 (n : Node) : Uint256.parse n.text = .ok n.toUint256 := by
  have hparse := Uint256.parse_hexDigits n.bytes 0 Text.blank_nil Text.blank_nil
  rwa [List.nil_append, List.append_nil] at hparse

end ClaimTree.Node
