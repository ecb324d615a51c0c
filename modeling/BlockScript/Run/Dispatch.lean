import BlockScript.Run.Eval

/-!
# Dispatching a command

A command is announced, its arguments are evaluated, the world may be scanned, positions are
resolved, and only then does it count. From there on it has exactly one result.
-/
namespace BlockScript
set_option autoImplicit false

/-- A command as it stands in a script. -/
structure CommandCall where
  name : String
  args : List (Arg Expr)
  loc : Location

namespace Run

variable {σ : Type} (setup : Setup σ)

/-- A scan that the command asks for; a world that cannot be scanned right now is no reason to stop. -/
def autoScan (loc : Location) (handler : CommandHandler σ) : Run σ Unit := do
  if setup.options.autoScan then
    if ← ask handler.needsScan then
      match ← ask (setup.context.probe.scan setup.options.defaultScanRadius) with
      | .ok () => pure ()
      | .error (.unavailable _) => pure ()
      | .error error => fail (.probe error) loc

/-- The check of the arguments and, if they pass, the action. -/
def perform (handler : CommandHandler σ) (args : Arguments) : Run σ (Except Fault (List String)) := do
  match ← ask (handler.validate args) with
  | .ok () => ask (handler.execute args)
  | .error fault => pure (.error fault)

def faultKind : Fault → ErrorKind
  | .connectionLost _ => .connectionLost
  | _ => .command

def resultOf (call : CommandCall) (opIndex : Nat) (stamp : Timestamp) (notes : List String) :
    Except Fault (List String) → StepResult
  | .ok more => .success ⟨opIndex, call.name, 0, notes ++ more⟩
  | .error fault =>
    .failure ⟨faultKind fault, some fault.code, fault.message, call.loc, opIndex, call.name,
      notes ++ fault.notes, stamp⟩

def lookupResult (call : CommandCall) (opIndex : Nat) (stamp : Timestamp) (message : String)
    (notes : List String) : StepResult :=
  .failure ⟨.absoluteLookup, some "unknown_waypoint", message, call.loc, opIndex, call.name, notes,
    stamp⟩

/-- Keeps a result. A lost connection ends the run, and so does any failure if the options say so. -/
def record (loc : Location) (result : StepResult) : Run σ Unit := do
  modify fun state => { state with
    lastOk := some result.isSuccess
    journal := state.journal.record result
    results := result :: state.results }
  match result with
  | .success _ => pure ()
  | .failure step =>
    if step.kind = .connectionLost ∨ setup.options.stopOnFailure then
      failWith (.commandFailed step.kind step.op step.message) loc step.notes

def countOp (name : String) : Run σ Unit :=
  modify fun state => { state with ops := state.ops + 1, lastOp := some name }

/-- From here on the command counts and has a result. -/
def conclude (call : CommandCall) (handler : CommandHandler σ) (opIndex : Nat)
    (prepared : Prepared) : Run σ Unit := do
  countOp call.name
  let stamp ← read (·.journal.createdAt)
  match prepared with
  | .lookupFailed message notes =>
    record setup call.loc (lookupResult call opIndex stamp message notes)
  | .ready args notes =>
    let outcome ← perform handler args
    record setup call.loc (resultOf call opIndex stamp notes outcome)

/-- What a command does before it counts. -/
def arrange (call : CommandCall) (handler : CommandHandler σ) (opIndex : Nat) : Run σ Prepared := do
  trace setup call.loc (.commandStarted opIndex call.name)
  let values ← evalArgs setup call.args
  autoScan setup call.loc handler
  prepare setup call.loc values

def dispatch (call : CommandCall) (handler : CommandHandler σ) : Run σ Unit := do
  checkCancelled setup call.loc
  let opIndex ← read (·.ops)
  if setup.options.opLimit ≤ opIndex then
    fail (.opLimit setup.options.opLimit call.name) call.loc
  else
    let prepared ← arrange setup call handler opIndex
    conclude setup call handler opIndex prepared

end Run

end BlockScript
