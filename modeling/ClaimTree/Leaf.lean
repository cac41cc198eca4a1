import ClaimTree.Claim
import ClaimTree.ClaimError
import ClaimTree.Node

namespace ClaimTree

inductive LeafVersion
  | v1
  | v2
deriving DecidableEq

namespace LeafVersion

def text : LeafVersion → String
  | .v1 => "v1"
  | .v2 => "v2"

def parse? : String → Option LeafVersion
  | "v1" => some .v1
  | "v2" => some .v2
  | _ => none

/-- The hashed fields one after the other, with `grant` as the grant. -/
def fields (version : LeafVersion) (grant : Uint256) (claim : Claim) : List UInt8 :=
  let tail := claim.receiver.bytes.toList ++ claim.nullifierHash.toBytes.toList
  match version with
  | .v1 => tail
  | .v2 => grant.toBytes.toList ++ tail

/-- The message whose digest is the leaf of a claim. -/
def message (version : LeafVersion) (claim : Claim) : Except ClaimError (List UInt8) :=
  match version, claim.grantId with
  | .v2, none => .error .missingGrant
  | _, grant => .ok (version.fields (grant.getD Uint256.zero) claim)

def leaf (version : LeafVersion) (claim : Claim) : Except ClaimError Node :=
  (version.message claim).map fun m => ⟨keccak256 m⟩

/-- The message of the padding claim, which both layouts accept. -/
def paddingMessage (version : LeafVersion) : List UInt8 :=
  version.fields Uint256.zero Claim.padding

/-- The leaf of every slot without a claim. -/
def paddingLeaf (version : LeafVersion) : Node := ⟨keccak256 version.paddingMessage⟩

end LeafVersion

end ClaimTree
