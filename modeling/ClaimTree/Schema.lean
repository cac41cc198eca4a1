import ClaimTree.Json.Value

namespace ClaimTree.Schema

open Json

/-- The dialect in which the schemas are written. -/
def dialect : String :=
  "/".intercalate ["https:", "", "json-schema.org", "draft", "2020-12", "schema"]

def described (description : String) (members : List (String × Json)) : Json :=
  object (("description", string description) :: members)

def text (description : String) : Json := described description [("type", string "string")]

def optionalText (description : String) : Json :=
  described description [("type", array [string "string", string "null"])]

def count (description : String) : Json :=
  described description
    [("type", string "integer"), ("format", string "uint"), ("minimum", integer 0)]

def texts (description : String) : Json :=
  described description
    [("type", string "array"), ("items", object [("type", string "string")])]

def required (keys : List String) : String × Json := ("required", array (keys.map string))

def document (title description : String) (properties : List (String × Json))
    (keys : List String) (definitions : List (String × Json)) : Json :=
  object ([("$schema", string dialect), ("title", string title),
    ("description", string description), ("type", string "object"),
    ("properties", object properties), required keys] ++ definitions)

def claimInput : Json :=
  described "One claim entry of a [`BatchInput`]." [
    ("type", string "object"),
    ("properties", object [
      ("grant_id", optionalText
        "Grant of this claim (decimal); falls back to the batch grant when absent."),
      ("nullifier_hash", text "Nullifier hash (decimal or `0x` hex)."),
      ("proof", texts "The claimant's Groth16 proof. Carried along, never inspected."),
      ("receiver", text "Receiver address (hex).")]),
    required ["receiver", "nullifier_hash"]]

def batchInput : Json :=
  document "BatchInput" "A batch of claims committed to a single root." [
      ("claims", described "The claims, in batch order." [
        ("type", string "array"),
        ("items", object [("$ref", string "#/$defs/ClaimInput")])]),
      ("grant_id", optionalText
        "Grant shared by every claim of the batch (decimal). Claims may override it."),
      ("max_proofs", count "Batch capacity; the leaf sequence is padded up to this length."),
      ("num_proofs", count "Number of real claims in `claims`."),
      ("root", text "Root previously committed for this batch (decimal or `0x` hex).")]
    ["root", "num_proofs", "max_proofs", "claims"]
    [("$defs", object [("ClaimInput", claimInput)])]

def claimRecord : Json :=
  document "ClaimRecord" "Everything a verifier needs to check one claim against a batch root." [
      ("grantId", optionalText
        "Grant id (minimal `0x` hex). Omitted when the batch carries none."),
      ("isLeftBytes", text
        "Byte-per-level orientation flags, `0x01` when the sibling is on the left."),
      ("leafIndex", count "Position of the claim's leaf in the batch."),
      ("nullifierHash", text "Nullifier hash (minimal `0x` hex)."),
      ("receiver", text "Receiver address (EIP-55)."),
      ("root", text "Recomputed tree root."),
      ("sisterNodes", texts "Sibling hashes from the leaf layer upward.")]
    ["root", "sisterNodes", "isLeftBytes", "nullifierHash", "receiver", "leafIndex"] []

/-- Both schemas, each under a heading. -/
def listing : String :=
  "Claim Batch JSON Schema:\n" ++ batchInput.text .pretty ++ "\n" ++
    "Claim Record JSON Schema:\n" ++ claimRecord.text .pretty ++ "\n"

end ClaimTree.Schema
