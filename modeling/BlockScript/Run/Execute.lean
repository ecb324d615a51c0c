import BlockScript.Run.Binding
import BlockScript.Run.Dispatch
import BlockScript.Run.Function

/-!
# Running programs

Statements are run by recursion on the program. A call runs statements that are no part of the text
around it; how many calls may be open is bounded, and each call is run by the next lower level. Loops
share a budget of iterations, and the recursion of a loop counts that budget down.
-/
namespace BlockScript
set_option autoImplicit false

namespace Run

variable {σ : Type} (setup : Setup σ)

/-- How the statements of a called body are run; nothing if no further call may be opened. -/
abbrev Enter (σ : Type) := Option (List Statement → Run σ Unit)

/-! ## Calls -/

/-- Checks the names in the body of a stored function, once for every function. -/
def validateOnce (callee : Callee) : Run σ Unit :=
  match callee.stored with
  | none => pure ()
  | some name => do
    if ← read (·.validated.contains name) then pure ()
    else
      validate setup callee.body
      modify fun state => { state with validated := name :: state.validated }

def call (enter : Enter σ) (command : CommandCall) (callee : Callee) : Run σ Unit :=
  match enter with
  | none => fail (.callDepth setup.options.maxCallDepth command.name) command.loc
  | some run => do
    let bound ← bindArgs setup command.name command.loc callee.params command.args
    validateOnce setup callee
    let depth ← read (·.depth + 1)
    trace setup command.loc (.macroEntered command.name depth)
    inFrame bound (run callee.body)

/-- Macros come first, then registered commands, then stored functions. -/
def execCommand (enter : Enter σ) (command : CommandCall) : Run σ Unit := do
  match ← read (·.env.findMacro? command.name) with
  | some m => call setup enter command (Callee.ofMacro m)
  | none =>
    match setup.context.registry.command? command.name with
    | some handler => dispatch setup command handler
    | none =>
      match ← fetch setup command.name command.loc with
      | some callee => call setup enter command callee
      | none => fail (.unknownCommand command.name) command.loc

/-! ## Loops -/

/-- What happens before every iteration. -/
def beginIteration (loc : Location) (iteration : Nat) (binding : Option (String × Int64)) :
    Run σ Unit := do
  checkCancelled setup loc
  modify fun state => { state with iterations := state.iterations + 1 }
  if setup.options.maxLoopIterations < (← read (·.iterations)) then
    fail (.iterationLimit setup.options.maxLoopIterations) loc
  else
    trace setup loc (.loopIteration iteration (binding.map Prod.fst) (binding.map Prod.snd))

/-- One kind of loop over indices of type `ι`. -/
structure Rounds (σ ι : Type) where
  more : ι → Run σ Bool
  start : ι → Run σ Unit
  body : ι → Run σ Unit
  next : ι → Option ι

/-- Runs rounds while there are more; `left` is at least the number of iterations that may still
begin, so at zero the start of a round halts the run. -/
def loop {ι : Type} (rounds : Rounds σ ι) : Nat → ι → Run σ Unit
  | 0, i => do
    if ← rounds.more i then rounds.start i
  | left + 1, i => do
    if ← rounds.more i then
      rounds.start i
      rounds.body i
      match rounds.next i with
      | some j => loop rounds left j
      | none => pure ()

/-- Runs rounds from an index, with the budget that is left. -/
def runRounds {ι : Type} (rounds : Rounds σ ι) (first : ι) : Run σ Unit := do
  loop rounds (setup.options.maxLoopIterations - (← read (·.iterations))) first

def countRounds (loc : Location) (count : Int64) (body : Run σ Unit) : Rounds σ Nat where
  more i := pure (i < count.toInt)
  start i := beginIteration setup loc i none
  body _ := body
  next i := some (i + 1)

def whileRounds (loc : Location) (test : Run σ Bool) (body : Run σ Unit) : Rounds σ Nat where
  more _ := test
  start i := beginIteration setup loc i none
  body _ := body
  next i := some (i + 1)

/-- The number of the iteration and the value of the variable. -/
structure Counter where
  iteration : Nat
  value : Int64

def inRange (step stop value : Int64) : Bool :=
  (step > 0 && value < stop) || (step < 0 && value > stop)

/-- The variable lives in a scope of its own around the body. -/
def rangeRounds (loc : Location) (name : String) (stop step : Int64) (body : Run σ Unit) :
    Rounds σ Counter where
  more c := pure (inRange step stop c.value)
  start c := beginIteration setup loc c.iteration (some (name, c.value))
  body c := inScope do
    modify fun state => { state with env := state.env.declare name (.int c.value) }
    body
  next c := (fit64 (c.value.toInt + step.toInt)).map fun value => ⟨c.iteration + 1, value⟩

/-! ## Statements -/

/-- Macros are known in the whole list that declares them. -/
def hoist (statements : List Statement) : Run σ Unit :=
  modify fun state =>
    { state with env := (statements.filterMap Statement.macro?).foldl Env.define state.env }

def bindVariable (name : String) (loc : Location) (value : Value) : Run σ Unit := do
  trace setup loc (.variableBound name value.render)
  modify fun state => { state with env := state.env.declare name value }

/-- Replaces the value of a variable; false if there is no such variable. -/
def assign (name : String) (value : Value) : Run σ Bool := fun state =>
  match state.env.assign? name value with
  | some env => (.ok true, { state with env := env })
  | none => (.ok false, state)

def assignVariable (name : String) (loc : Location) (value : Value) : Run σ Unit := do
  if ← assign name value then trace setup loc (.variableBound name value.render)
  else fail (.assignUndeclared name) loc

def rangeStep : Option Expr → Run σ Int64
  | some e => evalInt setup "range step" e
  | none => pure 1

def checkLocated (statement : Statement) : Run σ Unit :=
  match statement.loc? with
  | some loc => checkCancelled setup loc
  | none => pure ()

mutual

def execStatement (enter : Enter σ) : Statement → Run σ Unit
  | .define .. => pure ()
  | .empty => pure ()
  | .cond test yes no loc => do
    let taken ← evalCondition setup test
    trace setup loc (.branchTaken taken)
    if taken then execBody enter yes else execAlternative enter no
  | .repeatCount count body loc => do
    let n ← evalInt setup "repeat count" count
    runRounds setup (countRounds setup loc n (execBody enter body)) 0
  | .repeatRange name start stop step body loc => do
    let first ← evalInt setup "range start" start
    let last ← evalInt setup "range end" stop
    let stride ← rangeStep setup step
    if stride = 0 then fail .zeroStep loc
    else runRounds setup (rangeRounds setup loc name last stride (execBody enter body)) ⟨0, first⟩
  | .loop test body loc =>
    runRounds setup (whileRounds setup loc (evalCondition setup test) (execBody enter body)) 0
  | .assert test message loc => do
    let passed ← evalCondition setup test
    trace setup loc (.assertionChecked passed)
    if passed then pure () else fail (.assertionFailed message) loc
  | .bind name value loc => do
    bindVariable setup name loc (← eval setup value)
  | .assign name value loc => do
    assignVariable setup name loc (← eval setup value)
  | .command name args loc => execCommand setup enter ⟨name, args, loc⟩
  | .block body => execBody enter body

def execBody (enter : Enter σ) : Body Statement → Run σ Unit
  | ⟨statements, _⟩ => inScope do
    hoist statements
    execEach enter statements

def execAlternative (enter : Enter σ) : Option (Body Statement) → Run σ Unit
  | none => pure ()
  | some body => execBody enter body

def execEach (enter : Enter σ) : List Statement → Run σ Unit
  | [] => pure ()
  | statement :: rest => do
    checkLocated setup statement
    execStatement enter statement
    execEach enter rest

end

def execStatements (enter : Enter σ) (statements : List Statement) : Run σ Unit := do
  hoist statements
  execEach setup enter statements

/-- Runs statements of which calls may nest `levels` deep. -/
def execAt : Nat → List Statement → Run σ Unit
  | 0 => execStatements setup none
  | levels + 1 => execStatements setup (some (execAt levels))

/-! ## Whole runs -/

def body (program : Program) : Run σ Unit := do
  validate setup program
  execAt setup setup.options.maxCallDepth program

def outcomeOf : Except Termination Unit → Outcome
  | .ok () => .completed
  | .error termination => .terminated termination

def reportOf (state : State σ) (outcome : Outcome) : RunReport :=
  { runId := state.journal.runId
    correlationId := state.journal.correlationId
    results := state.results.reverse
    ops := state.ops
    outcome := outcome }

def finish (outcome : Outcome) (state : State σ) : RunReport × State σ :=
  let report := reportOf state outcome
  (report, { state with journal := state.journal.finish report })

def start (journal : Journal) (world : σ) : State σ := State.initial journal.start world

/-- The report of a program and the state that its run leaves behind. -/
def program (program : Program) (journal : Journal) (world : σ) : RunReport × State σ :=
  match body setup program (start journal world) with
  | (answer, state) => finish (outcomeOf answer) state

def malformed (error : SyntaxError) (stamp : Timestamp) : Termination :=
  { kind := .malformed
    message := error.message
    loc := some error.loc
    lastOpIndex := none
    op := none
    notes := []
    stamp := stamp }

/-- Runs a text; one that cannot be read ends the run before its first command. -/
def source (text : String) (journal : Journal) (world : σ) : RunReport × State σ :=
  match parse text with
  | .ok statements => program setup statements journal world
  | .error error =>
    finish (.terminated (malformed error journal.createdAt)) (start journal world)

end Run

end BlockScript
