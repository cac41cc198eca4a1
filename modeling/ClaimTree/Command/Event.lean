import ClaimTree.Address
import ClaimTree.Node

namespace ClaimTree

inductive Level
  | debug
  | info
  | warn
deriving DecidableEq

inductive Event
  | rootMatches (root : Node)
  | rootDiffers (declared computed : Node)
  | loaded (claims capacity : Nat)
  | treeBuilt (depth : Nat)
  | rootComputed (root : Node)
  | dumpWritten (layers : Nat)
  | recordWritten (index : Nat) (receiver : Address)
  | recordsWritten (count : Nat)
deriving DecidableEq

namespace Event

def level : Event → Level
  | .rootDiffers .. => .warn
  | .treeBuilt .. => .debug
  | _ => .info

def message : Event → String
  | .rootMatches .. => "Declared root matches"
  | .rootDiffers .. => "Declared root does not match, continuing"
  | .loaded .. => "Loaded claim batch"
  | .treeBuilt .. => "Built batch tree"
  | .rootComputed .. => "Computed batch root"
  | .dumpWritten .. => "Tree dump written"
  | .recordWritten .. => "Claim record written"
  | .recordsWritten .. => "Claim records written"

/-- The values reported along with the message, by name. -/
def values : Event → List (String × String)
  | .rootMatches root => [("root", root.text)]
  | .rootDiffers declared computed => [("declared", declared.text), ("computed", computed.text)]
  | .loaded claims capacity => [("claims", toString claims), ("capacity", toString capacity)]
  | .treeBuilt depth => [("depth", toString depth)]
  | .rootComputed root => [("root", root.text)]
  | .dumpWritten layers => [("layers", toString layers)]
  | .recordWritten index receiver =>
    [("index", toString index), ("receiver", receiver.checksum)]
  | .recordsWritten count => [("count", toString count)]

end Event

def Level.name : Level → String
  | .debug => "DEBUG"
  | .info => "INFO"
  | .warn => "WARN"

end ClaimTree
