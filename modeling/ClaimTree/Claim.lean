import ClaimTree.Address
import ClaimTree.Uint256

namespace ClaimTree

structure Claim where
  grantId : Option Uint256
  receiver : Address
  nullifierHash : Uint256
deriving DecidableEq

namespace Claim

/-- Reads the fields in this order, so the first one that is wrong is reported. -/
def parse (grantId : Option String) (receiver nullifierHash : String) :
    Except FieldError Claim := do
  let grantId ← grantId.mapM Uint256.parse
  let receiver ← Address.parse receiver
  let nullifierHash ← Uint256.parse nullifierHash
  return { grantId, receiver, nullifierHash }

/-- The claim that fills an empty slot. -/
def padding : Claim := ⟨some Uint256.zero, Address.zero, Uint256.zero⟩

end Claim

end ClaimTree
