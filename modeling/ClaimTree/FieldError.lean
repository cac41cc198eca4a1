namespace ClaimTree

/-- Why a text cannot be read, which is kept as it was given, blanks included. -/
inductive FieldError
  | address (text : String)
  | node (text : String)
  | integer (text : String)
  | overflow (text : String)
deriving DecidableEq

def FieldError.message : FieldError → String
  | .address text => s!"Invalid address `{text}`: expected 20 bytes of hex"
  | .node text => s!"Invalid hash `{text}`: expected 32 bytes of hex"
  | .integer text => s!"Invalid integer `{text}`"
  | .overflow text => s!"Integer `{text}` exceeds 256 bits"

end ClaimTree
