import ClaimTree.Text.Alphanumeric
import ClaimTree.Text.Blank

namespace ClaimTree.CommandLine

abbrev Variables := List (String × String)

/-- What stands behind a name and an equals sign in one of the variables, each read as
`NAME=value`. A name with an equals sign in it reaches into the value. -/
def Variables.value? (environment : Variables) (name : List Char) : Option (List Char) :=
  environment.findSome? fun (key, value) =>
    (name ++ ['=']).isPrefixOf? (key.toList ++ '=' :: value.toList)

/-- Why variables cannot be set. -/
inductive VariableError
  | nulInValue (name : String)
deriving DecidableEq

def VariableError.exitCode : VariableError → Nat
  | .nulInValue _ => 101

/-- Where a line stands with its quotes. -/
inductive Quoting
  | plain
  | blank
  | escape
  | strong
  | strongEscape
  | weak
  | weakEscape
deriving DecidableEq

/-- The quoting behind a character, or nothing where a comment begins. -/
def Quoting.next : Quoting → Char → Option Quoting
  | .blank, '#' => none
  | .plain, '\\' | .blank, '\\' => some .escape
  | .plain, '"' | .blank, '"' => some .weak
  | .plain, '\x27' | .blank, '\x27' => some .strong
  | .plain, c => some (if Text.isBlank c && c != '\n' && c != '\r' then .blank else .plain)
  | .blank, _ => some .plain
  | .escape, _ => some .plain
  | .weak, '\\' => some .weakEscape
  | .weak, '"' => some .plain
  | .weak, _ => some .weak
  | .weakEscape, _ => some .weak
  | .strong, '\\' => some .strongEscape
  | .strong, '\x27' => some .plain
  | .strong, _ => some .strong
  | .strongEscape, _ => some .strong

/-- The line up to a comment, and its quoting at the end if there is none. -/
def scanLine (quoting : Quoting) : List Char → List Char × Option Quoting
  | [] => ([], some quoting)
  | c :: s =>
    match quoting.next c with
    | none => ([], none)
    | some quoting =>
      let (kept, last) := scanLine quoting s
      (c :: kept, last)

/-- A line without its end. -/
def dropNewline (s : List Char) : List Char :=
  match s.reverse with
  | '\n' :: '\r' :: r => r.reverse
  | '\n' :: r => r.reverse
  | _ => s

/-- Puts lines together that a quoted value connects. A line that cannot be read, or a value that
does not end, is `none` and the last one. -/
def joinLines (before : List Char) (quoting : Quoting) :
    List (Option (List Char)) → List (Option (List Char))
  | [] => if quoting = .plain then [] else [none]
  | none :: _ => [none]
  | some line :: lines =>
    if (Text.trimStart (before ++ line)).head? = some '#' then joinLines [] .plain lines
    else
      match scanLine quoting line with
      | (kept, none) => some (before ++ kept) :: joinLines [] .plain lines
      | (_, some .plain) => some (dropNewline (before ++ line)) :: joinLines [] .plain lines
      | (_, some quoting) => joinLines (before ++ line) quoting lines

/-- A value as far as it has been read. -/
structure Draft where
  quote : Option Char := none
  escaped : Bool := false
  /-- Only blanks and a comment may follow. -/
  ended : Bool := false
  /-- The name of a variable under way, and whether it stands in braces. -/
  name : Option (Bool × List Char) := none
  /-- The characters in reverse order. -/
  written : List Char := []

namespace Draft

def push (d : Draft) (c : Char) : Draft := { d with written := c :: d.written }

/-- Writes out the variable under way; one that is not set is empty. -/
def substitute (environment : Variables) (d : Draft) : Draft :=
  match d.name with
  | none => d
  | some (_, name) =>
    let value := (environment.value? name.reverse).getD []
    { d with name := none, written := value.reverse ++ d.written }

/-- The draft behind a further character of a variable's name. -/
def stepName (environment : Variables) (d : Draft) (braced : Bool) (name : List Char) (c : Char) :
    Draft :=
  if Text.isAlphanumeric c then { d with name := some (braced, c :: name) }
  else if braced then
    if c = '}' then d.substitute environment else { d with name := some (true, c :: name) }
  else if c = '{' && name.isEmpty then { d with name := some (true, []) }
  else
    let d := d.substitute environment
    if c = '$' then { d with name := some (false, []) } else d.push c

def stepPlain (d : Draft) (c : Char) : Draft :=
  match c with
  | '$' => { d with name := some (false, []) }
  | '\\' => { d with escaped := true }
  | '"' => { d with quote := if d.quote.isSome then none else some '"' }
  | c =>
    if d.quote.isSome then d.push c
    else if c = '\x27' then { d with quote := some '\x27' }
    else if c = ' ' || c = '\t' then { d with ended := true }
    else d.push c

/-- The character behind a backslash. -/
def unescape? : Char → Option Char
  | 'n' => some '\n'
  | c => if ['\\', '\x27', '"', '$', ' '].contains c then some c else none

/-- The value, unless a quote or a brace is still open. -/
def finish (environment : Variables) (d : Draft) : Option String :=
  match d.quote, d.name with
  | none, some (true, _) => none
  | none, _ => some (String.ofList (d.substitute environment).written.reverse)
  | some _, _ => none

end Draft

def readValue (environment : Variables) (d : Draft) : List Char → Option String
  | [] => d.finish environment
  | c :: s =>
    if d.ended then
      if c = ' ' || c = '\t' then readValue environment d s
      else if c = '#' then d.finish environment
      else none
    else if d.escaped then
      match Draft.unescape? c with
      | some c => readValue environment { d.push c with escaped := false } s
      | none => none
    else if d.quote = some '\x27' then
      readValue environment (if c = '\x27' then { d with quote := none } else d.push c) s
    else
      match d.name with
      | some (braced, name) => readValue environment (d.stepName environment braced name c) s
      | none => readValue environment (d.stepPlain c) s

def isNameStart (c : Char) : Bool := c.isAlpha || c == '_'

def isNamePart (c : Char) : Bool := c.isAlphanum || c == '_' || c == '.'

/-- The name at the front of a line, and what follows behind blanks. -/
def takeName? (s : List Char) : Option (String × List Char) :=
  if s.head?.any isNameStart then
    some (String.ofList (s.takeWhile isNamePart), Text.trimStart (s.dropWhile isNamePart))
  else none

/-- The name that a line sets, and what follows the equals sign. -/
def takeTarget? (s : List Char) : Option (String × List Char) := do
  match ← takeName? s with
  | (name, '=' :: s) => return (name, s)
  | ("export", s) =>
    match ← takeName? s with
    | (name, '=' :: s) => return (name, s)
    | _ => none
  | _ => none

/-- The variables with a further one; one that is set already keeps its value. -/
def Variables.set (environment : Variables) (name value : String) :
    Except VariableError Variables :=
  if (environment.lookup name).isSome then .ok environment
  else if value.toList.contains '\x00' then .error (.nulInValue name)
  else .ok ((name, value) :: environment)

/-- The variables with those of further lines, up to the first one that makes no sense. -/
def addLines (environment : Variables) :
    List (Option (List Char)) → Except VariableError Variables
  | [] => .ok environment
  | none :: _ => .ok environment
  | some line :: lines => do
    let line := Text.trim line
    if line.isEmpty || line.head? = some '#' then addLines environment lines
    else
      match takeTarget? line with
      | none => return environment
      | some (name, s) =>
        let s := Text.trimStart s
        let value := if s.isEmpty || s.head? = some '#' then some "" else readValue environment {} s
        match value with
        | none => return environment
        | some value => addLines (← environment.set name value) lines

/-- The bytes up to and with each line end. -/
def byteLines : List UInt8 → List (List UInt8)
  | [] => []
  | b :: bs =>
    if b = 10 then [b] :: byteLines bs
    else
      match byteLines bs with
      | [] => [[b]]
      | line :: lines => (b :: line) :: lines

/-- The variables with those of a file; the mark of a byte order in front is left aside. -/
def addFile (environment : Variables) (contents : ByteArray) : Except VariableError Variables :=
  let bytes : List UInt8 := match contents.toList with
    | 0xEF :: 0xBB :: 0xBF :: bytes => bytes
    | bytes => bytes
  let lines := (byteLines bytes).map fun line =>
    (String.fromUTF8? ⟨line.toArray⟩).map String.toList
  addLines environment (joinLines [] .plain lines)

end ClaimTree.CommandLine
