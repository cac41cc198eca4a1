import ClaimTree.Leaf
import ClaimTree.Text.Digit

namespace ClaimTree.CommandLine

/-- Why the arguments are not a request; asking for help is one of the reasons. -/
inductive UsageError
  | help
  | missingCommand
  | unknownCommand
  | unknownArgument
  | invalidValue
  | rejectedValue
  | flagWithValue
  | conflict
  | missingSwitch
deriving DecidableEq

def UsageError.exitCode : UsageError → Nat
  | .help => 0
  | _ => 2

inductive Verb
  | batchRoot
  | batchDump
  | claimExport
  | schema
deriving DecidableEq

def Verb.all : List Verb := [.batchRoot, .batchDump, .claimExport, .schema]

inductive Group
  | all
  | batch
  | claim
deriving DecidableEq

/-- What a word names inside a group. -/
inductive Member
  | group (g : Group)
  | verb (v : Verb)
  /-- The command that explains the others. -/
  | help

def Group.member? : Group → String → Option Member
  | _, "help" => some .help
  | .all, "batch" => some (.group .batch)
  | .all, "claim" => some (.group .claim)
  | .all, "schema" => some (.verb .schema)
  | .batch, "root" => some (.verb .batchRoot)
  | .batch, "dump" => some (.verb .batchDump)
  | .claim, "export" => some (.verb .claimExport)
  | _, _ => none

inductive Switch
  | input
  | version
  | allowRootMismatch
  | index
  | all
  | out
deriving DecidableEq

/-- The switches of a command, in the order in which their variables are looked at. -/
def Verb.switches : Verb → List Switch
  | .batchRoot => [.input, .version, .allowRootMismatch]
  | .batchDump => [.input, .version, .allowRootMismatch, .out]
  | .claimExport => [.input, .version, .allowRootMismatch, .index, .all, .out]
  | .schema => []

namespace Switch

def name : Switch → String
  | input => "input"
  | version => "version"
  | allowRootMismatch => "allow-root-mismatch"
  | index => "index"
  | all => "all"
  | out => "out"

def takesValue : Switch → Bool
  | allowRootMismatch => false
  | all => false
  | _ => true

/-- The variable that stands in for a switch that is not given. -/
def variableName? (verb : Verb) : Switch → Option String
  | input => some "INPUT_FILE"
  | version => some "LEAF_VERSION"
  | allowRootMismatch => some "ALLOW_ROOT_MISMATCH"
  | index => some "CLAIM_INDEX"
  | all => none
  | out => some (if verb = .batchDump then "TREE_OUT" else "CLAIMS_OUT")

end Switch

/-- A position in a batch: decimal digits, with a plus sign or without, of at most 64 bits. -/
def index? (text : String) : Option Nat :=
  let digits : List Char := match text.toList with
    | '+' :: ds => ds
    | ds => ds
  (Text.number? 10 digits).filter (· < UInt64.size)

def truth? : String → Option Bool
  | "true" => some true
  | "false" => some false
  | _ => none

/-- Judges the text given for a switch. -/
def Switch.check (switch : Switch) (text : String) : Except UsageError Unit :=
  match switch with
  | .input | .out => if text.isEmpty then .error .invalidValue else .ok ()
  | .version => if (LeafVersion.parse? text).isSome then .ok () else .error .rejectedValue
  | .index => if (index? text).isSome then .ok () else .error .rejectedValue
  | .allowRootMismatch | .all => if (truth? text).isSome then .ok () else .error .invalidValue

end ClaimTree.CommandLine
