import ClaimTree.Json.Numeral
import ClaimTree.Json.Quoted

namespace ClaimTree.Json

inductive Bracket
  | array
  | object
deriving DecidableEq

def Bracket.closing : Bracket → Char
  | .array => ']'
  | .object => '}'

/-- Takes the colon behind a key off the front. -/
def takeColon (s : List Char) : Except Fault (List Char) := expect [':'] (skipSpace s)

/-- Passes over a value without parts. A number that is cut short counts as malformed here. -/
def passScalar (s : List Char) : Except Fault (List Char) :=
  match s with
  | [] => .error .truncated
  | '"' :: s => passQuoted s
  | 'n' :: s => expect ['u', 'l', 'l'] s
  | 't' :: s => expect ['r', 'u', 'e'] s
  | 'f' :: s => expect ['a', 'l', 's', 'e'] s
  | c :: _ =>
    if startsNumeral c then
      match readNumeral s with
      | .ok (_, s) => .ok s
      | .error _ => .error .malformed
    else .error .malformed

/-- Passes over what stands before the value of a part: in an object, its key. -/
def Bracket.passKey (b : Bracket) (s : List Char) : Except Fault (List Char) :=
  match b with
  | .array => .ok s
  | .object => do
    let s ← expect ['"'] (skipSpace s)
    let s ← passQuoted s
    takeColon s

/-- Closes brackets behind a value until the next value is due. -/
def passClosing : List Bracket → List Char → Except Fault (List Bracket × List Char)
  | [], s => .ok ([], s)
  | b :: outer, s =>
    match skipSpace s with
    | [] => .error .truncated
    | c :: s =>
      if c = b.closing then passClosing outer s
      else if c = ',' then (b.passKey s).map (b :: outer, ·)
      else .error .malformed

/-- Opens a bracket, and closes it again if there is nothing in it. -/
def passOpening (b : Bracket) (outer : List Bracket) (s : List Char) :
    Except Fault (List Bracket × List Char) :=
  match skipSpace s with
  | [] => .error .truncated
  | c :: s =>
    if c = b.closing then passClosing outer s
    else (b.passKey (c :: s)).map (b :: outer, ·)

/-- Passes over a value without parts or an opening bracket, and over what is closed behind it. -/
def passPart (outer : List Bracket) (s : List Char) : Except Fault (List Bracket × List Char) :=
  match skipSpace s with
  | '[' :: s => passOpening .array outer s
  | '{' :: s => passOpening .object outer s
  | s => do
    let s ← passScalar s
    passClosing outer s

/-- Passes over parts until all brackets are closed. Every part takes at least one character, so
the text is at its end when the characters that count the steps are used up. -/
def passParts : (steps : List Char) → List Bracket → List Char → Except Fault (List Char)
  | [], _, _ => .error .truncated
  | _ :: steps, outer, s => do
    match ← passPart outer s with
    | ([], s) => return s
    | (outer, s) => passParts steps outer s

/-- Passes over one value. -/
def passValue (s : List Char) : Except Fault (List Char) := passParts s [] s

end ClaimTree.Json
