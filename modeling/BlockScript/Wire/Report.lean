import BlockScript.Report.Basic
import BlockScript.Wire.Space

/-!
# Events in JSON

The members of a step, a trace or a report stand beside the tag of the event that carries them, so
the tags `event`, `status`, `type` and `outcome` are names that no content has. All that an event
carries was held beside its tag, and a failure or a termination beside its own.
-/
namespace BlockScript
set_option autoImplicit false

namespace Timestamp

def toJson (stamp : Timestamp) : Json := .string stamp.text

def ofJson? (json : Json) : Option Timestamp := do ofText? (← json.string?)

end Timestamp

namespace RunId

def toJson (id : RunId) : Json := .string id.text

def ofJson? (json : Json) : Option RunId := do ofText? (← json.string?)

end RunId

namespace ErrorKind

def toJson (kind : ErrorKind) : Json := .string kind.word

def ofJson? (stage : Json.Stage) (json : Json) : Option ErrorKind := do
  ofWord? (← json.choice? stage)

end ErrorKind

def natJson (n : Nat) : Json := .int n

def notesJson? : Json → Option (List String) := Json.list? Json.string?

namespace StepSuccess

def toJson (step : StepSuccess) : Json :=
  .object ([("opIndex", natJson step.opIndex), ("op", .string step.op),
      ("elapsedMs", natJson step.elapsedMs)] ++
    Json.notesMember "notes" step.notes)

def ofJson? (json : Json) : Option StepSuccess := do
  let fields ← json.record? ["opIndex", "op", "elapsedMs", "notes"]
  let opIndex ← fields.required? "opIndex" Json.nat64?
  let op ← fields.required? "op" Json.string?
  let elapsedMs ← fields.required? "elapsedMs" Json.nat64?
  let notes ← fields.optional? "notes" [] notesJson?
  return ⟨opIndex, op, elapsedMs, notes⟩

end StepSuccess

namespace StepFailure

def toJson (step : StepFailure) : Json :=
  .object ([("error", step.kind.toJson)] ++ Json.member? "code" .string step.code ++
    [("message", .string step.message), ("location", step.loc.toJson),
      ("opIndex", natJson step.opIndex), ("op", .string step.op)] ++
    Json.notesMember "notes" step.notes ++ [("timestamp", step.stamp.toJson)])

def ofJson? (json : Json) : Option StepFailure := do
  let fields ← json.record?
    ["error", "code", "message", "location", "opIndex", "op", "notes", "timestamp"]
  let kind ← fields.required? "error" (ErrorKind.ofJson? .held)
  let code ← fields.optional? "code" none (Json.nullable? Json.string?)
  let message ← fields.required? "message" Json.string?
  let loc ← fields.required? "location" Location.ofJson?
  let opIndex ← fields.required? "opIndex" Json.nat64?
  let op ← fields.required? "op" Json.string?
  let notes ← fields.optional? "notes" [] notesJson?
  let stamp ← fields.required? "timestamp" Timestamp.ofJson?
  return ⟨kind, code, message, loc, opIndex, op, notes, stamp⟩

end StepFailure

namespace StepResult

def toJson : StepResult → Json
  | success step => Json.withTag "status" "success" step.toJson
  | failure step => Json.withTag "status" "failure" step.toJson

def statuses : List String := ["success", "failure"]

def ofJson? (stage : Json.Stage) (json : Json) : Option StepResult := do
  let (status, content) ← json.tagged? "status" statuses stage
  if status = "success" then return success (← StepSuccess.ofJson? content)
  else if status = "failure" then return failure (← StepFailure.ofJson? content)
  else none

end StepResult

namespace TraceKind

def toJson : TraceKind → Json
  | branchTaken taken => .object [("type", .string "branch_taken"), ("taken", .bool taken)]
  | loopIteration iteration name value =>
    .object ([("type", .string "loop_iteration"), ("iteration", natJson iteration)] ++
      Json.member? "variable" .string name ++
      Json.member? "value" (fun n : Int64 => .int n.toInt) value)
  | variableBound name value =>
    .object [("type", .string "variable_bound"), ("name", .string name), ("value", .string value)]
  | predicateEvaluated name value =>
    .object [("type", .string "predicate_evaluated"), ("name", .string name), ("value", .bool value)]
  | macroEntered name depth =>
    .object [("type", .string "macro_entered"), ("name", .string name), ("depth", natJson depth)]
  | assertionChecked passed =>
    .object [("type", .string "assertion_checked"), ("passed", .bool passed)]
  | commandStarted opIndex op =>
    .object [("type", .string "command_started"), ("opIndex", natJson opIndex), ("op", .string op)]

/-- The content of a trace of a given type. -/
def ofContent? (type : String) (content : Json) : Option TraceKind :=
  match type with
  | "branch_taken" => do
    let fields ← content.record? ["taken"]
    return branchTaken (← fields.required? "taken" Json.bool?)
  | "loop_iteration" => do
    let fields ← content.record? ["iteration", "variable", "value"]
    let iteration ← fields.required? "iteration" Json.nat64?
    let name ← fields.optional? "variable" none (Json.nullable? Json.string?)
    let value ← fields.optional? "value" none (Json.nullable? Json.int64?)
    return loopIteration iteration name value
  | "variable_bound" => do
    let fields ← content.record? ["name", "value"]
    let name ← fields.required? "name" Json.string?
    return variableBound name (← fields.required? "value" Json.string?)
  | "predicate_evaluated" => do
    let fields ← content.record? ["name", "value"]
    let name ← fields.required? "name" Json.string?
    return predicateEvaluated name (← fields.required? "value" Json.bool?)
  | "macro_entered" => do
    let fields ← content.record? ["name", "depth"]
    let name ← fields.required? "name" Json.string?
    return macroEntered name (← fields.required? "depth" Json.nat64?)
  | "assertion_checked" => do
    let fields ← content.record? ["passed"]
    return assertionChecked (← fields.required? "passed" Json.bool?)
  | "command_started" => do
    let fields ← content.record? ["opIndex", "op"]
    let opIndex ← fields.required? "opIndex" Json.nat64?
    return commandStarted opIndex (← fields.required? "op" Json.string?)
  | _ => none

def types : List String :=
  ["branch_taken", "loop_iteration", "variable_bound", "predicate_evaluated", "macro_entered",
    "assertion_checked", "command_started"]

def ofJson? (json : Json) : Option TraceKind := do
  let (type, content) ← json.tagged? "type" types .held
  ofContent? type content

end TraceKind

namespace Trace

/-- The members of the kind stand beside the time and the place. -/
def toJson (trace : Trace) : Json :=
  match trace.kind.toJson with
  | .object members =>
    .object ([("timestamp", trace.stamp.toJson), ("location", trace.loc.toJson)] ++ members)
  | json => json

def ownNames : List String := ["timestamp", "location"]

/-- Read from an object only. What belongs to the kind is held until all members are seen. -/
def ofJson? (json : Json) : Option Trace :=
  match json with
  | .object members => do
    let fields ← json.record? ownNames
    let stamp ← fields.required? "timestamp" Timestamp.ofJson?
    let loc ← fields.required? "location" Location.ofJson?
    let others := members.filter fun (name, _) => !ownNames.contains name
    return ⟨stamp, loc, ← TraceKind.ofJson? (.object others)⟩
  | _ => none

end Trace

namespace Termination

def toJson (termination : Termination) : Json :=
  .object ([("kind", termination.kind.toJson), ("message", .string termination.message)] ++
    Json.member? "location" Location.toJson termination.loc ++
    Json.member? "lastOpIndex" natJson termination.lastOpIndex ++
    Json.member? "op" .string termination.op ++
    Json.notesMember "notes" termination.notes ++
    [("timestamp", termination.stamp.toJson)])

def ofJson? (stage : Json.Stage) (json : Json) : Option Termination := do
  let fields ← json.record?
    ["kind", "message", "location", "lastOpIndex", "op", "notes", "timestamp"]
  let kind ← fields.required? "kind" (ErrorKind.ofJson? stage)
  let message ← fields.required? "message" Json.string?
  let loc ← fields.optional? "location" none (Json.nullable? Location.ofJson?)
  let lastOpIndex ← fields.optional? "lastOpIndex" none (Json.nullable? Json.nat64?)
  let op ← fields.optional? "op" none (Json.nullable? Json.string?)
  let notes ← fields.optional? "notes" [] notesJson?
  let stamp ← fields.required? "timestamp" Timestamp.ofJson?
  return ⟨kind, message, loc, lastOpIndex, op, notes, stamp⟩

end Termination

namespace Outcome

def toJson : Outcome → Json
  | completed => .object [("outcome", .string "completed")]
  | terminated termination => Json.withTag "outcome" "terminated" termination.toJson

def outcomes : List String := ["completed", "terminated"]

/-- Nothing but the tag counts for a completed run, and a list must hold nothing else. -/
def ofJson? (stage : Json.Stage) (json : Json) : Option Outcome := do
  let (outcome, content) ← json.tagged? "outcome" outcomes stage
  if outcome = "completed" then
    match content with
    | .array (_ :: _) => none
    | _ => return completed
  else if outcome = "terminated" then return terminated (← Termination.ofJson? .held content)
  else none

end Outcome

namespace RunReport

def toJson (report : RunReport) : Json :=
  .object ([("runId", report.runId.toJson)] ++
    Json.member? "correlationId" .string report.correlationId ++
    [("results", .array (report.results.map StepResult.toJson)), ("ops", natJson report.ops),
      ("outcome", report.outcome.toJson)])

def ofJson? (stage : Json.Stage) (json : Json) : Option RunReport := do
  let fields ← json.record? ["runId", "correlationId", "results", "ops", "outcome"]
  let runId ← fields.required? "runId" RunId.ofJson?
  let correlationId ← fields.optional? "correlationId" none (Json.nullable? Json.string?)
  let results ← fields.required? "results" (Json.list? (StepResult.ofJson? stage))
  let ops ← fields.required? "ops" Json.nat64?
  let outcome ← fields.required? "outcome" (Outcome.ofJson? stage)
  return ⟨runId, correlationId, results, ops, outcome⟩

end RunReport

namespace Event

def toJson : Event → Json
  | started runId correlationId actor =>
    .object ([("event", .string "started"), ("run_id", runId.toJson)] ++
      Json.member? "correlation_id" .string correlationId ++ [("actor", .string actor)])
  | step result => Json.withTag "event" "step" result.toJson
  | trace t => Json.withTag "event" "trace" t.toJson
  | finished report => Json.withTag "event" "finished" report.toJson

def startedOfJson? (json : Json) : Option Event := do
  let fields ← json.record? ["run_id", "correlation_id", "actor"]
  let runId ← fields.required? "run_id" RunId.ofJson?
  let correlationId ← fields.optional? "correlation_id" none (Json.nullable? Json.string?)
  return started runId correlationId (← fields.required? "actor" Json.string?)

def names : List String := ["started", "step", "trace", "finished"]

def ofJson? (json : Json) : Option Event := do
  let (event, content) ← json.tagged? "event" names .fresh
  if event = "started" then startedOfJson? content
  else if event = "step" then return step (← StepResult.ofJson? .held content)
  else if event = "trace" then return trace (← Trace.ofJson? content)
  else if event = "finished" then return finished (← RunReport.ofJson? .held content)
  else none

end Event

end BlockScript
