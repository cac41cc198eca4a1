import ClaimTree.Command.Basic
import ClaimTree.CommandLine.Syntax

namespace ClaimTree.CommandLine

/-- What the command line asks for. -/
inductive Request
  | schema
  | batchRoot (config : Config)
  | batchDump (config : Config) (out : String)
  | claimExport (config : Config) (index : Option Nat) (all : Bool) (out : String)
deriving DecidableEq

/-- An argument by its form. -/
inductive Argument
  /-- Two dashes alone: only words follow. -/
  | separator
  | long (name : String) (value : Option String)
  | short (letters : List Char)
  | word (text : String)

def Argument.ofText (text : String) : Argument :=
  match text.toList with
  | ['-', '-'] => .separator
  | '-' :: '-' :: s =>
    match s.dropWhile (· != '=') with
    | [] => .long (String.ofList s) none
    | _ :: value => .long (String.ofList (s.takeWhile (· != '='))) (some (String.ofList value))
  | '-' :: c :: s => .short (c :: s)
  | _ => .word text

/-- The switches read so far. A value in a word of its own is judged only when the next switch or
the end of the line is reached. -/
structure Given where
  settled : List (Switch × String) := []
  pending : Option (Switch × Option String) := none

namespace Given

/-- Takes in a switch with its value. -/
def add (given : Given) (switch : Switch) (value : String) : Except UsageError Given := do
  if given.settled.any (·.1 = switch) then .error .conflict
  else
    switch.check value
    return { given with settled := (switch, value) :: given.settled }

/-- Takes in the switch that waits, if one does. -/
def settle (given : Given) : Except UsageError Given :=
  match given.pending with
  | none => .ok given
  | some (_, none) => .error .invalidValue
  | some (switch, some value) => { given with pending := none }.add switch value

end Given

/-- Reads the arguments behind a command. -/
def readSwitches (verb : Verb) (given : Given) : List String → Except UsageError Given
  | [] => given.settle
  | arg :: args =>
    match Argument.ofText arg with
    | .separator => if args.isEmpty then given.settle else .error .unknownArgument
    | .long "help" none => do
      let _ ← given.settle
      .error .help
    | .long "help" (some _) => .error .flagWithValue
    | .long name value =>
      match verb.switches.find? (·.name = name), value with
      | none, _ => .error .unknownArgument
      | some switch, some value =>
        if switch.takesValue then do
          let given ← given.settle
          readSwitches verb (← given.add switch value) args
        else .error .flagWithValue
      | some switch, none => do
        let given ← given.settle
        if switch.takesValue then
          readSwitches verb { given with pending := some (switch, none) } args
        else readSwitches verb (← given.add switch "true") args
    | .short ('h' :: _) => do
      let _ ← given.settle
      .error .help
    | .short _ => .error .unknownArgument
    | .word text =>
      match given.pending with
      | some (switch, none) =>
        readSwitches verb { given with pending := some (switch, some text) } args
      | _ => .error .unknownArgument

/-- Fills in the switches that are not given from their variables. -/
def fillIn (verb : Verb) (environment : List (String × String)) :
    List Switch → Given → Except UsageError Given
  | [], given => .ok given
  | switch :: switches, given => do
    let isGiven := given.settled.any (·.1 = switch)
    match (switch.variableName? verb).bind (List.lookup · environment) with
    | some value =>
      if isGiven then fillIn verb environment switches given
      else fillIn verb environment switches (← given.add switch value)
    | none => fillIn verb environment switches given

/-- The request that the switches make of a command. -/
def Given.toRequest (given : Given) (verb : Verb) : Except UsageError Request :=
  let value? (switch : Switch) : Option String := given.settled.lookup switch
  let config : Config := {
    input := (value? .input).getD "batch.json"
    version := ((value? .version).bind LeafVersion.parse?).getD .v2
    allowRootMismatch := ((value? .allowRootMismatch).bind truth?).getD false }
  match verb with
  | .schema => .ok .schema
  | .batchRoot => .ok (.batchRoot config)
  | .batchDump => .ok (.batchDump config ((value? .out).getD "tree.txt"))
  | .claimExport =>
    let index := (value? .index).bind index?
    let all := (value? .all).isSome
    let out := (value? .out).getD "claim.json"
    if index.isSome && all then .error .conflict
    else if index.isNone && !all then .error .missingSwitch
    else .ok (.claimExport config index all out)

/-- Reads the words behind `help`: the command that is to be explained. -/
def readHelp : Group → List String → UsageError
  | _, [] => .help
  | group, arg :: args =>
    match group.member? arg with
    | some (.group inner) => readHelp inner args
    | some _ => if args.isEmpty then .help else .unknownCommand
    | none => .unknownCommand

/-- The error of a word that follows two dashes where a command is due. -/
def wordError (group : Group) (word : String) : UsageError :=
  if (group.member? word).isSome then .unknownArgument else .unknownCommand

/-- Finds the command that the arguments begin with, and hands on what follows. -/
def readVerb : Group → List String → Except UsageError (Verb × List String)
  | _, [] => .error .missingCommand
  | group, arg :: args =>
    match group.member? arg with
    | some (.group inner) => readVerb inner args
    | some (.verb verb) => .ok (verb, args)
    | some .help => .error (readHelp group args)
    | none =>
      match Argument.ofText arg with
      | .separator =>
        match args with
        | [] => .error .missingCommand
        | word :: _ => .error (wordError group word)
      | .long "help" none => .error .help
      | .long "help" (some _) => .error .flagWithValue
      | .long _ _ => .error .unknownArgument
      | .short ('h' :: _) => .error .help
      | .short _ => .error .unknownArgument
      | .word _ => .error .unknownCommand

/-- A switch wins over its variable, and the variable over the default. -/
def parse (environment : List (String × String)) (args : List String) :
    Except UsageError Request := do
  let (verb, args) ← readVerb .all args
  let given ← readSwitches verb {} args
  let given ← fillIn verb environment verb.switches given
  given.toRequest verb

end ClaimTree.CommandLine
