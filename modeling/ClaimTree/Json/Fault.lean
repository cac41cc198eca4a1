namespace ClaimTree.Json

/-- Why reading a document stops. It is read from left to right up to the first problem. -/
inductive Fault
  /-- The text ends too early. -/
  | truncated
  /-- The text is not well-formed. -/
  | malformed
  /-- A well-formed value is of the wrong kind, or a member is missing or repeated. -/
  | mistyped
deriving DecidableEq

/-- Reads a value off the front of a text and hands on the rest. -/
abbrev Reader (α : Type) := List Char → Except Fault (α × List Char)

def isSpace (c : Char) : Bool := c == ' ' || c == '\t' || c == '\n' || c == '\r'

def skipSpace (s : List Char) : List Char := s.dropWhile isSpace

/-- Takes exactly these characters off the front. -/
def expect : List Char → List Char → Except Fault (List Char)
  | [], s => .ok s
  | _ :: _, [] => .error .truncated
  | c :: word, d :: s => if c = d then expect word s else .error .malformed

end ClaimTree.Json
