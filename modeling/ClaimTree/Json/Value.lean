import ClaimTree.Double.Shortest
import ClaimTree.Json.Numeral
import ClaimTree.Json.Quoted

namespace ClaimTree

inductive Json
  | null
  | bool (b : Bool)
  | integer (n : Int)
  | real (negative : Bool) (size : Double)
  | string (text : String)
  | array (elements : List Json)
  | object (members : List (String × Json))

namespace Json

/-- All in one line, or over lines that are indented by two spaces a level. -/
inductive Layout
  | compact
  | pretty
deriving DecidableEq

/-- The value of a number as it stands in a document: whole numbers of 64 bits are exact, all others
are doubles, and there is none for a number that is too large. -/
def ofNumeral? (n : Numeral) : Option Json :=
  let v := decimalValue n.whole
  if n.isWhole && !n.negative && v < UInt64.size then some (.integer v)
  else if n.isWhole && n.negative && 0 < v && 2 * v ≤ UInt64.size then some (.integer (-v))
  else n.toDouble?.map (.real n.negative)

/-- What stands in front of a part at this depth. -/
def Layout.lineBreak (layout : Layout) (depth : Nat) : List Char :=
  match layout with
  | .compact => []
  | .pretty => '\n' :: List.replicate (2 * depth) ' '

/-- What stands between a key and its value. -/
def Layout.colon : Layout → List Char
  | .compact => [':']
  | .pretty => [':', ' ']

def integerText : Int → List Char
  | .ofNat n => Nat.toDigits 10 n
  | .negSucc n => '-' :: Nat.toDigits 10 (n + 1)

mutual

def write (layout : Layout) (depth : Nat) : Json → List Char
  | .null => ['n', 'u', 'l', 'l']
  | .bool true => ['t', 'r', 'u', 'e']
  | .bool false => ['f', 'a', 'l', 's', 'e']
  | .integer n => integerText n
  | .real negative size => if negative then '-' :: size.text else size.text
  | .string text => quote text.toList
  | .array [] => ['[', ']']
  | .array (e :: es) =>
    '[' :: layout.lineBreak (depth + 1) ++ write layout (depth + 1) e ++
      writeElements layout (depth + 1) es ++ layout.lineBreak depth ++ [']']
  | .object [] => ['{', '}']
  | .object ((key, v) :: ms) =>
    '{' :: layout.lineBreak (depth + 1) ++ quote key.toList ++ layout.colon ++
      write layout (depth + 1) v ++ writeMembers layout (depth + 1) ms ++
      layout.lineBreak depth ++ ['}']

/-- The elements behind the first one. -/
def writeElements (layout : Layout) (depth : Nat) : List Json → List Char
  | [] => []
  | e :: es =>
    ',' :: layout.lineBreak depth ++ write layout depth e ++ writeElements layout depth es

/-- The members behind the first one. -/
def writeMembers (layout : Layout) (depth : Nat) : List (String × Json) → List Char
  | [] => []
  | (key, v) :: ms =>
    ',' :: layout.lineBreak depth ++ quote key.toList ++ layout.colon ++ write layout depth v ++
      writeMembers layout depth ms

end

def text (layout : Layout) (v : Json) : String := String.ofList (write layout 0 v)

end Json

end ClaimTree
