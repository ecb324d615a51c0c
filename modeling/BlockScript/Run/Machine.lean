import BlockScript.Command.Registry
import BlockScript.Report.Journal
import BlockScript.Report.Options
import BlockScript.Run.Halt
import BlockScript.Scope.Env

/-!
# The machine of a run

A run is a state that is passed on, whether a step ends well or halts the run. The world outside, with
all that its handlers, probe and stores remember, is one part of that state.
-/
namespace BlockScript
set_option autoImplicit false

/-- What a run talks to. -/
structure Context (σ : Type) where
  registry : Registry (CommandHandler σ) (PredicateHandler σ)
  probe : Probe σ
  /-- By actor and name. -/
  waypoint : String → WaypointLookup σ := fun _ _ world => (.ok none, world)
  /-- By actor and name. -/
  function : String → String → Act σ (Except StoreError (Option StoredFunction)) :=
    fun _ _ world => (.ok none, world)
  /-- Whether the run has been cancelled by now. -/
  cancelled : Act σ Bool := fun world => (false, world)

/-- The name of the predicate that tells whether the last command succeeded. -/
def lastOkName : String := "last_ok"

structure Setup (σ : Type) where
  context : Context σ
  options : RunOptions

/-- A parameter of a macro or a function, with its default if it has one. -/
structure CallParam where
  name : String
  type : ParamType
  default : Option Value
  optional : Bool
deriving DecidableEq, Inhabited

/-- What a call enters. A stored function has its own name. -/
structure Callee where
  params : List CallParam
  body : List Statement
  stored : Option String

namespace Callee

def ofMacro (m : Macro) : Callee :=
  { params := m.params.map fun p => ⟨p.name, p.type, none, false⟩
    body := m.body.statements
    stored := none }

end Callee

structure State (σ : Type) where
  world : σ
  env : Env
  /-- How many commands have a result. -/
  ops : Nat
  /-- How many loop iterations have begun. -/
  iterations : Nat
  /-- How many calls are open. -/
  depth : Nat
  lastOk : Option Bool
  lastOp : Option String
  /-- The functions that have been looked up, with those that do not exist. -/
  functions : Dict (Option Callee)
  /-- The functions whose bodies have been checked. -/
  validated : List String
  /-- Newest first. -/
  results : List StepResult
  journal : Journal

def State.initial {σ : Type} (journal : Journal) (world : σ) : State σ :=
  { world, env := Env.empty, ops := 0, iterations := 0, depth := 0, lastOk := none, lastOp := none,
    functions := Dict.empty, validated := [], results := [], journal }

/-- A step of a run: an answer, or the termination that halts the run, and the state after it. -/
def Run (σ α : Type) := State σ → Except Termination α × State σ

namespace Run

variable {σ α β : Type}

instance : Monad (Run σ) where
  pure a := fun state => (.ok a, state)
  bind step next := fun state =>
    match step state with
    | (.ok a, state) => next a state
    | (.error termination, state) => (.error termination, state)

/-- Reads a part of the state. -/
def read (part : State σ → α) : Run σ α := fun state => (.ok (part state), state)

def modify (change : State σ → State σ) : Run σ Unit := fun state => (.ok (), change state)

/-- Asks the world outside. -/
def ask (act : Act σ α) : Run σ α := fun state =>
  let (answer, world) := act state.world
  (.ok answer, { state with world := world })

/-- A termination tells which command came last. -/
def terminate (halt : Halt) (loc : Location) (notes : List String) (state : State σ) : Termination :=
  { kind := halt.kind
    message := halt.message
    loc := some loc
    lastOpIndex := if state.ops = 0 then none else some (state.ops - 1)
    op := state.lastOp
    notes := notes
    stamp := state.journal.createdAt }

def failWith (halt : Halt) (loc : Location) (notes : List String) : Run σ α := fun state =>
  (.error (terminate halt loc notes state), state)

def fail (halt : Halt) (loc : Location) : Run σ α := failWith halt loc []

def trace (setup : Setup σ) (loc : Location) (kind : TraceKind) : Run σ Unit := fun state =>
  if setup.options.trace then
    (.ok (), { state with journal := state.journal.trace ⟨state.journal.createdAt, loc, kind⟩ })
  else (.ok (), state)

def checkCancelled (setup : Setup σ) (loc : Location) : Run σ Unit := do
  if ← ask setup.context.cancelled then fail .cancelled loc

def ofProbe (loc : Location) (answer : Except ProbeError α) : Run σ α :=
  match answer with
  | .ok a => pure a
  | .error error => fail (.probe error) loc

def pose (setup : Setup σ) (loc : Location) : Run σ Pose := do
  ofProbe loc (← ask setup.context.probe.pose)

/-- Runs a step in a new scope, which is closed on every way out. -/
def inScope (step : Run σ α) : Run σ α := fun state =>
  let (answer, after) := step { state with env := state.env.push }
  (answer, { after with env := after.env.pop })

/-- Runs a step in the scope of a call, with its parameters bound. -/
def inFrame (bound : List (String × Value)) (step : Run σ α) : Run σ α := fun state =>
  let env := bound.foldl (fun env (name, value) => env.declare name value) state.env.pushFrame
  let (answer, after) := step { state with env := env, depth := state.depth + 1 }
  (answer, { after with env := after.env.pop, depth := after.depth - 1 })

end Run

end BlockScript
