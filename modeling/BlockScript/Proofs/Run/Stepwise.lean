import BlockScript.Proofs.Run.Budget

/-!
# Running step by step

A machine that runs a program with an explicit stack of what is left to do. Its loops go on as long
as their tests say so and its calls open frames whenever the depth allows it; nothing counts down,
so it is open whether the machine ever stops. A termination unwinds the stack and closes what is
open.
-/
namespace BlockScript
set_option autoImplicit false

namespace Run

variable {σ : Type}

/-- Something that is left to do. The last three are loops before their next test. -/
inductive Task where
  | whole (program : Program)
  | each (statements : List Statement)
  | closeScope
  | closeFrame
  | count (loc : Location) (count : Int64) (body : Body Statement) (i : Nat)
  | test (loc : Location) (test : Expr) (body : Body Statement) (i : Nat)
  | range (loc : Location) (name : String) (stop step : Int64) (body : Body Statement) (c : Counter)

/-- What a task leaves to do in its place, and how many iterations have begun in it. -/
structure Advance where
  tasks : List Task
  begun : Nat

section

variable (setup : Setup σ)

/-! ## Opening -/

def openBody (body : Body Statement) : Run σ (List Task) := do
  modify fun state => { state with env := state.env.push }
  hoist body.statements
  return [.each body.statements, .closeScope]

def openAlternative : Option (Body Statement) → Run σ (List Task)
  | none => pure []
  | some body => openBody body

/-- The body of a loop over a range, in the scope of its variable. -/
def openRound (name : String) (value : Int64) (body : Body Statement) : Run σ (List Task) := do
  modify fun state => { state with env := state.env.push }
  modify fun state => { state with env := state.env.declare name (.int value) }
  let tasks ← openBody body
  return tasks ++ [.closeScope]

def openFrame (bound : List (String × Value)) (statements : List Statement) :
    Run σ (List Task) := do
  modify fun state => { state with
    env := bound.foldl (fun env (name, value) => env.declare name value) state.env.pushFrame
    depth := state.depth + 1 }
  hoist statements
  return [.each statements, .closeFrame]

/-- A call that the depth allows. -/
def openCallee (command : CommandCall) (callee : Callee) : Run σ (List Task) := do
  let bound ← bindArgs setup command.name command.loc callee.params command.args
  validateOnce setup callee
  let depth ← read (·.depth + 1)
  trace setup command.loc (.macroEntered command.name depth)
  openFrame bound callee.body

def openCall (command : CommandCall) (callee : Callee) : Run σ (List Task) := do
  if setup.options.maxCallDepth < (← read (·.depth + 1)) then
    fail (.callDepth setup.options.maxCallDepth command.name) command.loc
  else openCallee setup command callee

def openCommand (command : CommandCall) : Run σ (List Task) := do
  match ← read (·.env.findMacro? command.name) with
  | some m => openCall setup command (Callee.ofMacro m)
  | none =>
    match setup.context.registry.command? command.name with
    | some handler => do
      dispatch setup command handler
      return []
    | none =>
      match ← fetch setup command.name command.loc with
      | some callee => openCall setup command callee
      | none => fail (.unknownCommand command.name) command.loc

/-- Does what a statement does at once, and tells what it leaves to do. -/
def openStatement : Statement → Run σ (List Task)
  | .define .. => pure []
  | .empty => pure []
  | .cond test yes no loc => do
    let taken ← evalCondition setup test
    trace setup loc (.branchTaken taken)
    if taken then openBody yes else openAlternative no
  | .repeatCount count body loc => do
    let n ← evalInt setup "repeat count" count
    return [.count loc n body 0]
  | .repeatRange name start stop step body loc => do
    let first ← evalInt setup "range start" start
    let last ← evalInt setup "range end" stop
    let stride ← rangeStep setup step
    if stride = 0 then fail .zeroStep loc
    else return [.range loc name last stride body ⟨0, first⟩]
  | .loop test body loc => pure [.test loc test body 0]
  | .assert test message loc => do
    let passed ← evalCondition setup test
    trace setup loc (.assertionChecked passed)
    if passed then return [] else fail (.assertionFailed message) loc
  | .bind name value loc => do
    bindVariable setup name loc (← eval setup value)
    return []
  | .assign name value loc => do
    assignVariable setup name loc (← eval setup value)
    return []
  | .command name args loc => openCommand setup ⟨name, args, loc⟩
  | .block body => openBody body

/-! ## Steps -/

/-- One test of a loop: a round that begins counts, and after it the loop is tested again. -/
def turn (more : Run σ Bool) (start : Run σ Unit) (opened : Run σ (List Task))
    (again : List Task) : Run σ Advance := do
  if ← more then
    start
    let tasks ← opened
    return ⟨tasks ++ again, 1⟩
  else return ⟨[], 0⟩

def Task.run : Task → Run σ Advance
  | whole program => do
    validate setup program
    hoist program
    return ⟨[.each program], 0⟩
  | each [] => pure ⟨[], 0⟩
  | each (statement :: rest) => do
    checkLocated setup statement
    let tasks ← openStatement setup statement
    return ⟨tasks ++ [.each rest], 0⟩
  | closeScope => do
    modify fun state => { state with env := state.env.pop }
    return ⟨[], 0⟩
  | closeFrame => do
    modify fun state => { state with env := state.env.pop, depth := state.depth - 1 }
    return ⟨[], 0⟩
  | count loc n body i =>
    turn (pure (i < n.toInt)) (beginIteration setup loc i none) (openBody body)
      [count loc n body (i + 1)]
  | test loc e body i =>
    turn (evalCondition setup e) (beginIteration setup loc i none) (openBody body)
      [test loc e body (i + 1)]
  | range loc name stop step body c =>
    turn (pure (inRange step stop c.value))
      (beginIteration setup loc c.iteration (some (name, c.value))) (openRound name c.value body)
      (((fit64 (c.value.toInt + step.toInt)).map fun value =>
        range loc name stop step body ⟨c.iteration + 1, value⟩).toList)

/-- What a task that is given up still does. -/
def Task.unwind : Task → State σ → State σ
  | closeScope, state => { state with env := state.env.pop }
  | closeFrame, state => { state with env := state.env.pop, depth := state.depth - 1 }
  | _, state => state

/-- The machine: what is left to do, the state, whether the run is being terminated, and how many
iterations have begun. -/
structure Config (σ : Type) where
  tasks : List Task
  state : State σ
  status : Except Termination Unit
  begun : Nat

def Config.initial (program : Program) (journal : Journal) (world : σ) : Config σ :=
  ⟨[.whole program], Run.start journal world, .ok (), 0⟩

/-- One step; nothing if nothing is left to do. -/
def Config.next (config : Config σ) : Option (Config σ) :=
  match config.tasks, config.status with
  | [], _ => none
  | task :: rest, .error x => some ⟨rest, task.unwind config.state, .error x, config.begun⟩
  | task :: rest, .ok () =>
    match task.run setup config.state with
    | (.ok advance, state) =>
      some ⟨advance.tasks ++ rest, state, .ok (), config.begun + advance.begun⟩
    | (.error x, state) => some ⟨rest, state, .error x, config.begun⟩

/-- The configuration after some steps, if the machine has not stopped before. -/
def Config.after (config : Config σ) : Nat → Option (Config σ)
  | 0 => some config
  | steps + 1 => (config.next setup).bind fun config => config.after steps

/-- The budgets of a configuration are kept. -/
structure Config.Within (config : Config σ) : Prop where
  depth : config.state.depth ≤ setup.options.maxCallDepth
  begun : config.begun ≤ setup.options.maxLoopIterations

/-- The machine comes from one configuration to another in finitely many steps, and the budgets are
kept on the way. -/
inductive Reaches : Config σ → Config σ → Prop where
  | here {c : Config σ} (h : c.Within setup) : Reaches c c
  | step {c d e : Config σ} (h : c.Within setup) (hnext : c.next setup = some d)
    (hrest : Reaches d e) : Reaches c e

end

variable {setup : Setup σ}

/-- A step while the run goes on is a step of the first task. -/
theorem Config.next_of_ok {task : Task} {s s' : State σ} {advance : Advance}
    (h : task.run setup s = (.ok advance, s')) (rest : List Task) (begun : Nat) :
    Config.next setup ⟨task :: rest, s, .ok (), begun⟩ =
      some ⟨advance.tasks ++ rest, s', .ok (), begun + advance.begun⟩ := by
  unfold Config.next
  dsimp only
  rw [h]

theorem Config.next_of_error {task : Task} {s s' : State σ} {x : Termination}
    (h : task.run setup s = (.error x, s')) (rest : List Task) (begun : Nat) :
    Config.next setup ⟨task :: rest, s, .ok (), begun⟩ = some ⟨rest, s', .error x, begun⟩ := by
  unfold Config.next
  dsimp only
  rw [h]

namespace Config

/-- While the run goes on and something is left to do, there is a next step. -/
theorem next_run {c : Config σ} {task : Task} {rest : List Task} (hgoes : c.status = .ok ())
    (htasks : c.tasks = task :: rest) :
    ∃ d, c.next setup = some d ∧ d.state = (task.run setup c.state).2 ∧
      ∀ x s', task.run setup c.state = (.error x, s') →
        d.status = .error x ∧ d.begun = c.begun := by
  obtain ⟨tasks, state, status, begun⟩ := c
  obtain rfl : status = .ok () := hgoes
  obtain rfl : tasks = task :: rest := htasks
  dsimp only
  cases hrun : task.run setup state with
  | mk answer s' =>
    cases answer with
    | ok advance =>
      refine ⟨_, next_of_ok hrun rest begun, rfl, ?_⟩
      intro x s'' h
      cases h
    | error x =>
      refine ⟨_, next_of_error hrun rest begun, rfl, ?_⟩
      intro y s'' h
      cases h
      exact ⟨rfl, rfl⟩

/-- A step of the machine while the run goes on is a step of the next task. -/
theorem next_cases {c d : Config σ} (h : c.next setup = some d) (hstatus : c.status = .ok ()) :
    ∃ task rest, c.tasks = task :: rest ∧
      ((∃ advance, task.run setup c.state = (.ok advance, d.state) ∧
          d.status = .ok () ∧ d.tasks = advance.tasks ++ rest) ∨
        ∃ x, task.run setup c.state = (.error x, d.state) ∧ d.status = .error x) := by
  obtain ⟨tasks, state, status, begun⟩ := c
  obtain rfl : status = .ok () := hstatus
  cases tasks with
  | nil => cases h
  | cons task rest =>
    refine ⟨task, rest, rfl, ?_⟩
    cases hrun : task.run setup state with
    | mk answer s' =>
      cases answer with
      | ok advance =>
        rw [next_of_ok hrun] at h
        cases h
        exact .inl ⟨advance, rfl, rfl, rfl⟩
      | error x =>
        rw [next_of_error hrun] at h
        cases h
        exact .inr ⟨x, rfl, rfl⟩

/-- A termination stays. -/
theorem error_of_next {c d : Config σ} {x : Termination} (h : c.next setup = some d)
    (hstatus : c.status = .error x) : d.status = .error x := by
  obtain ⟨tasks, state, status, begun⟩ := c
  obtain rfl : status = .error x := hstatus
  cases tasks with
  | nil => cases h
  | cons task rest =>
    cases h
    rfl

/-- Unwinding closes scopes and frames, and changes nothing outside. -/
theorem outside_of_next {c d : Config σ} {x : Termination} (h : c.next setup = some d)
    (hstatus : c.status = .error x) : d.state.outside = c.state.outside := by
  obtain ⟨tasks, state, status, begun⟩ := c
  obtain rfl : status = .error x := hstatus
  cases tasks with
  | nil => cases h
  | cons task rest =>
    cases h
    cases task <;> rfl

/-- Unwinding leaves what is known of functions. -/
theorem functions_of_next {c d : Config σ} {x : Termination} (h : c.next setup = some d)
    (hstatus : c.status = .error x) : d.state.functions = c.state.functions := by
  obtain ⟨tasks, state, status, begun⟩ := c
  obtain rfl : status = .error x := hstatus
  cases tasks with
  | nil => cases h
  | cons task rest =>
    cases h
    cases task <;> rfl

theorem error_of_after {c d : Config σ} {x : Termination} {steps : Nat}
    (h : c.after setup steps = some d) (hstatus : c.status = .error x) : d.status = .error x := by
  induction steps generalizing c with
  | zero =>
    cases h
    exact hstatus
  | succ steps ih =>
    obtain ⟨e, hnext, hrest⟩ := Option.bind_eq_some_iff.1 h
    exact ih hrest (error_of_next hnext hstatus)

theorem status_of_after {c d : Config σ} {steps : Nat} (h : c.after setup steps = some d)
    (hstatus : d.status = .ok ()) : c.status = .ok () := by
  cases hc : c.status with
  | ok _ => rfl
  | error x =>
    rw [error_of_after h hc] at hstatus
    cases hstatus

theorem after_add (c : Config σ) (first second : Nat) :
    c.after setup (first + second) =
      (c.after setup first).bind fun d => d.after setup second := by
  induction first generalizing c with
  | zero => rw [Nat.zero_add]; rfl
  | succ first ih =>
    rw [Nat.succ_add]
    change (c.next setup).bind (fun e => e.after setup (first + second)) =
      ((c.next setup).bind fun e => e.after setup first).bind fun d => d.after setup second
    rw [Option.bind_assoc]
    congr 1
    funext e
    exact ih e

/-- Every configuration on the way leads to the one in which nothing is left to do. -/
theorem after_of_last {c d last : Config σ} {i n : Nat} (hd : c.after setup i = some d)
    (hlast : c.after setup n = some last) (hnone : last.next setup = none) :
    ∃ k, d.after setup k = some last := by
  rcases Nat.le_total i n with hle | hle
  · obtain ⟨k, rfl⟩ := Nat.exists_eq_add_of_le hle
    rw [after_add, hd] at hlast
    exact ⟨k, hlast⟩
  · obtain ⟨k, rfl⟩ := Nat.exists_eq_add_of_le hle
    rw [after_add, hlast] at hd
    cases k with
    | zero =>
      cases hd
      exact ⟨0, rfl⟩
    | succ k =>
      change (last.next setup).bind _ = some d at hd
      rw [hnone] at hd
      cases hd

end Config

theorem Reaches.trans {c d e : Config σ} (h : Reaches setup c d) (h' : Reaches setup d e) :
    Reaches setup c e := by
  induction h with
  | here _ => exact h'
  | step hwithin hnext _ ih => exact .step hwithin hnext (ih h')

theorem Reaches.within {c d : Config σ} (h : Reaches setup c d) : d.Within setup := by
  induction h with
  | here hwithin => exact hwithin
  | step _ _ _ ih => exact ih

/-- The number of steps, with all configurations on the way. -/
theorem Reaches.steps {c d : Config σ} (h : Reaches setup c d) :
    ∃ steps, c.after setup steps = some d ∧
      ∀ i ≤ steps, ∃ e, c.after setup i = some e ∧ e.Within setup := by
  induction h with
  | @here c hwithin =>
    refine ⟨0, rfl, fun i hi => ⟨c, ?_, hwithin⟩⟩
    rw [Nat.le_zero.1 hi]
    rfl
  | @step c d e hwithin hnext _ ih =>
    obtain ⟨steps, hlast, hall⟩ := ih
    refine ⟨steps + 1, ?_, fun i hi => ?_⟩
    · change (c.next setup).bind _ = some e
      rw [hnext]
      exact hlast
    · cases i with
      | zero => exact ⟨c, rfl, hwithin⟩
      | succ i =>
        obtain ⟨f, hf, hfwithin⟩ := hall i (Nat.le_of_succ_le_succ hi)
        refine ⟨f, ?_, hfwithin⟩
        change (c.next setup).bind _ = some f
        rw [hnext]
        exact hf

end Run

end BlockScript
