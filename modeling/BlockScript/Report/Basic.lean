import BlockScript.Report.Stamp
import BlockScript.Token.Location

/-!
# Results, traces and reports

Every dispatched command has one result. Traces tell how control flows and are apart from results. A
run ends with a report, whose outcome says whether the script came to its end.
-/
namespace BlockScript
set_option autoImplicit false

/-- The kinds of failures and terminations. -/
inductive ErrorKind where
  /-- The script text could not be read. -/
  | malformed
  /-- A name is not known or not bound. -/
  | scope
  | assertion
  /-- The commands or the loop iterations of the run are used up. -/
  | opLimitExceeded
  | command
  | cancelled
  /-- A position that does not depend on the actor could not be found. -/
  | absoluteLookup
  | runtime
  | connectionLost
deriving DecidableEq, Inhabited

namespace ErrorKind

def all : List ErrorKind :=
  [malformed, scope, assertion, opLimitExceeded, command, cancelled, absoluteLookup, runtime,
    connectionLost]

def name : ErrorKind → String
  | malformed => "SyntaxError"
  | scope => "ScopeError"
  | assertion => "AssertionError"
  | opLimitExceeded => "OpLimitExceeded"
  | command => "CommandError"
  | cancelled => "Cancelled"
  | absoluteLookup => "AbsoluteLookupError"
  | runtime => "RuntimeError"
  | connectionLost => "ConnectionLost"

/-- The word on the wire. -/
def word : ErrorKind → String
  | malformed => "syntax"
  | scope => "scope"
  | assertion => "assertion"
  | opLimitExceeded => "op_limit_exceeded"
  | command => "command"
  | cancelled => "cancelled"
  | absoluteLookup => "absolute_lookup"
  | runtime => "runtime"
  | connectionLost => "connection_lost"

def ofWord? (word : String) : Option ErrorKind := all.find? fun kind => kind.word = word

end ErrorKind

structure StepSuccess where
  opIndex : Nat
  op : String
  elapsedMs : Nat
  notes : List String
deriving DecidableEq, Inhabited

structure StepFailure where
  kind : ErrorKind
  /-- A word of the handler for what went wrong. -/
  code : Option String
  message : String
  loc : Location
  opIndex : Nat
  op : String
  notes : List String
  stamp : Timestamp
deriving DecidableEq, Inhabited

/-- The result of one dispatched command. -/
inductive StepResult where
  | success (step : StepSuccess)
  | failure (step : StepFailure)
deriving DecidableEq, Inhabited

namespace StepResult

def isSuccess : StepResult → Bool
  | success _ => true
  | failure _ => false

def opIndex : StepResult → Nat
  | success step => step.opIndex
  | failure step => step.opIndex

def op : StepResult → String
  | success step => step.op
  | failure step => step.op

def notes : StepResult → List String
  | success step => step.notes
  | failure step => step.notes

def kind? : StepResult → Option ErrorKind
  | success _ => none
  | failure step => some step.kind

/-- Gives a failure a code; a success has none. -/
def withCode (result : StepResult) (code : String) : StepResult :=
  match result with
  | success step => success step
  | failure step => failure { step with code := some code }

def withNotes (result : StepResult) (notes : List String) : StepResult :=
  match result with
  | success step => success { step with notes := step.notes ++ notes }
  | failure step => failure { step with notes := step.notes ++ notes }

def render : StepResult → String
  | success step =>
    "#" ++ toString step.opIndex ++ " " ++ step.op ++ " ok (" ++ toString step.elapsedMs ++ "ms)"
  | failure step =>
    "#" ++ toString step.opIndex ++ " " ++ step.op ++ " failed at " ++ step.loc.render ++ ": " ++
      step.kind.name ++ ": " ++ step.message

end StepResult

inductive TraceKind where
  | branchTaken (taken : Bool)
  /-- A loop with a counter also names it and gives its value. -/
  | loopIteration (iteration : Nat) (name : Option String) (value : Option Int64)
  | variableBound (name value : String)
  | predicateEvaluated (name : String) (value : Bool)
  | macroEntered (name : String) (depth : Nat)
  | assertionChecked (passed : Bool)
  | commandStarted (opIndex : Nat) (op : String)
deriving DecidableEq, Inhabited

structure Trace where
  stamp : Timestamp
  loc : Location
  kind : TraceKind
deriving DecidableEq, Inhabited

/-- Why a run stopped before the end of its script. -/
structure Termination where
  kind : ErrorKind
  message : String
  loc : Option Location
  lastOpIndex : Option Nat
  op : Option String
  notes : List String
  stamp : Timestamp
deriving DecidableEq, Inhabited

def Termination.render (termination : Termination) : String :=
  match termination.loc with
  | some loc => termination.kind.name ++ " at " ++ loc.render ++ ": " ++ termination.message
  | none => termination.kind.name ++ ": " ++ termination.message

inductive Outcome where
  | completed
  | terminated (termination : Termination)
deriving DecidableEq, Inhabited

inductive RunState where
  | completed
  | failed
  | cancelled
deriving DecidableEq, Inhabited

namespace RunState

def name : RunState → String
  | completed => "Completed"
  | failed => "Failed"
  | cancelled => "Cancelled"

def word : RunState → String
  | completed => "completed"
  | failed => "failed"
  | cancelled => "cancelled"

end RunState

structure RunReport where
  runId : RunId
  correlationId : Option String
  results : List StepResult
  /-- How many commands were dispatched. -/
  ops : Nat
  outcome : Outcome
deriving DecidableEq, Inhabited

namespace RunReport

def termination? (report : RunReport) : Option Termination :=
  match report.outcome with
  | .completed => none
  | .terminated termination => some termination

def failures (report : RunReport) : List StepResult :=
  report.results.filter fun result => !result.isSuccess

/-- A run is complete only if its script came to the end and no command failed. -/
def state (report : RunReport) : RunState :=
  match report.outcome with
  | .terminated termination => if termination.kind = .cancelled then .cancelled else .failed
  | .completed => if report.failures.isEmpty then .completed else .failed

end RunReport

inductive Event where
  | started (runId : RunId) (correlationId : Option String) (actor : String)
  | step (result : StepResult)
  | trace (trace : Trace)
  | finished (report : RunReport)
deriving DecidableEq, Inhabited

namespace Event

def isFinished : Event → Bool
  | finished _ => true
  | _ => false

def isTrace : Event → Bool
  | trace _ => true
  | _ => false

end Event

end BlockScript
