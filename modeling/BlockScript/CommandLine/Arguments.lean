import BlockScript.Text.Numeral

/-!
# Reading a command line

A command line names what to do and then mixes options with one operand. A value follows its option
as the next word or after an equals sign; after `--` every word is an operand.
-/
namespace BlockScript.CommandLine
set_option autoImplicit false

structure RunArgs where
  script : String
  opLimit : Option Nat := none
  trace : Bool := false
  json : Bool := false
  stopOnFailure : Bool := false
  noAutoScan : Bool := false
  actor : Option String := none
  correlationId : Option String := none
  waypoints : Option String := none
  functions : Option String := none
  journal : Option String := none
deriving DecidableEq, Inhabited

inductive Invocation where
  | check (script : String)
  | key (selector : String)
  | run (args : RunArgs)
deriving DecidableEq, Inhabited

/-- Why a command line asks for nothing that can be done. -/
inductive UsageError where
  | noCommand
  | unknownCommand (word : String)
  | unknownOption (word : String)
  | missingValue (option : String)
  | unexpectedValue (option : String)
  | invalidNumber (option value : String)
  | missingOperand
  | unexpectedOperand (word : String)
deriving DecidableEq, Inhabited

def UsageError.message : UsageError → String
  | noCommand => "a command is required: check, run or key"
  | unknownCommand word => "unrecognized command '" ++ word ++ "'"
  | unknownOption word => "unexpected option '" ++ word ++ "'"
  | missingValue option => "a value is required for '" ++ option ++ "'"
  | unexpectedValue option => "no value is expected for '" ++ option ++ "'"
  | invalidNumber option value => "invalid value '" ++ value ++ "' for '" ++ option ++ "'"
  | missingOperand => "an operand is required"
  | unexpectedOperand word => "unexpected operand '" ++ word ++ "'"

/-- One option, with its value if it takes one, or an operand. -/
inductive Item where
  | flag (name : String)
  | valued (name value : String)
  | operand (word : String)
deriving DecidableEq, Inhabited

/-- The options that a command knows. -/
structure Grammar where
  flags : List String
  valued : List String

def commonValued : List String := ["--log-dir"]

def runGrammar : Grammar :=
  { flags := ["--trace", "--json", "--stop-on-failure", "--no-autoscan"]
    valued := ["--op-limit", "--actor", "--correlation-id", "--waypoints", "--functions",
      "--journal"] ++ commonValued }

def plainGrammar : Grammar := ⟨[], commonValued⟩

/-- Cuts a word at its first equals sign. -/
def splitValue (word : String) : String × Option String :=
  let cs := word.toList
  match cs.dropWhile (· ≠ '=') with
  | [] => (word, none)
  | _ :: value => (String.ofList (cs.takeWhile (· ≠ '=')), some (String.ofList value))

/-- The long name of a one-letter option. -/
def longName (word : String) : String × Option String :=
  match word.toList with
  | ['-', 'a'] => ("--actor", none)
  | '-' :: 'a' :: '=' :: value => ("--actor", some (String.ofList value))
  | '-' :: 'a' :: value => ("--actor", some (String.ofList value))
  | _ => (word, none)

def isOption (word : String) : Bool :=
  match word.toList with
  | ['-'] => false
  | '-' :: _ => true
  | _ => false

def isLong (word : String) : Bool := "--".toList.isPrefixOf word.toList

def optionName (word : String) : String × Option String :=
  if isLong word then splitValue word else longName word

/-- Sorts words into options and operands. -/
def items (grammar : Grammar) : List String → Except UsageError (List Item)
  | [] => .ok []
  | word :: rest =>
    if word = "--" then .ok (rest.map .operand)
    else if isOption word then
      let (name, value) := optionName word
      if grammar.flags.contains name then
        match value with
        | none => do return .flag name :: (← items grammar rest)
        | some _ => .error (.unexpectedValue name)
      else if grammar.valued.contains name then
        match value, rest with
        | some value, rest => do return .valued name value :: (← items grammar rest)
        | none, [] => .error (.missingValue name)
        | none, value :: rest => do return .valued name value :: (← items grammar rest)
      else .error (.unknownOption word)
    else do return .operand word :: (← items grammar rest)

def operands (list : List Item) : List String :=
  list.filterMap fun
    | .operand word => some word
    | _ => none

def operand? (list : List Item) : Except UsageError String :=
  match operands list with
  | [] => .error .missingOperand
  | [word] => .ok word
  | _ :: word :: _ => .error (.unexpectedOperand word)

def hasFlag (list : List Item) (name : String) : Bool := list.contains (.flag name)

def value? (list : List Item) (name : String) : Option String :=
  list.findSome? fun
    | .valued n value => if n = name then some value else none
    | _ => none

def opLimit? (list : List Item) : Except UsageError (Option Nat) :=
  match value? list "--op-limit" with
  | none => .ok none
  | some text =>
    let digits := match text.toList with
      | '+' :: rest => rest
      | cs => cs
    if !digits.isEmpty ∧ digits.all Text.isDigit ∧ Text.natOfDigits digits < UInt64.size then
      .ok (some (Text.natOfDigits digits))
    else .error (.invalidNumber "--op-limit" text)

/-- The name of the variable that gives the actor if no option does. -/
def actorVariable : String := "CRAFTSCRIPT_ACTOR"

def runArgs (environment : String → Option String) (list : List Item) : Except UsageError RunArgs := do
  let script ← operand? list
  let opLimit ← opLimit? list
  return {
    script
    opLimit
    trace := hasFlag list "--trace"
    json := hasFlag list "--json"
    stopOnFailure := hasFlag list "--stop-on-failure"
    noAutoScan := hasFlag list "--no-autoscan"
    actor := (value? list "--actor").or (environment actorVariable)
    correlationId := value? list "--correlation-id"
    waypoints := value? list "--waypoints"
    functions := value? list "--functions"
    journal := value? list "--journal" }

/-- What a command line asks for; `environment` gives the variables of the caller. -/
def parse (environment : String → Option String) : List String → Except UsageError Invocation
  | [] => .error .noCommand
  | command :: rest =>
    if command = "check" then do return .check (← operand? (← items plainGrammar rest))
    else if command = "key" then do return .key (← operand? (← items plainGrammar rest))
    else if command = "run" then do return .run (← runArgs environment (← items runGrammar rest))
    else .error (.unknownCommand command)

end BlockScript.CommandLine
