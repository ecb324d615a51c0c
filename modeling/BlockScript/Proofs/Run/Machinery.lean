import BlockScript.Proofs.Run.Lockstep
import BlockScript.Proofs.Run.Stepwise

/-!
# Properties of the machine's steps

A step of the machine is put together from a few small steps, and a property that they have is a
property of every step. Commands, checks of names and the frames of calls are left open: there
properties differ.
-/
namespace BlockScript
set_option autoImplicit false

namespace Run

variable {σ : Type}

/-- What the steps of the machine are made of has the property `P`, commands, checks of names and
frames apart. -/
structure Machinery (setup : Setup σ) (P : ∀ α : Type, Run σ α → Prop) : Prop where
  pure : ∀ {α : Type} (a : α), P α (Pure.pure a)
  bind : ∀ {α β : Type} {m : Run σ α} {k : α → Run σ β}, P α m → (∀ a, P β (k a)) → P β (m >>= k)
  read : ∀ {α : Type} (part : State σ → α), P α (Run.read part)
  fail : ∀ {α : Type} (halt : Halt) (loc : Location), P α (Run.fail halt loc)
  /-- A change of the scopes. -/
  scope : ∀ f : Env → Env, P Unit (Run.modify fun s => { s with env := f s.env })
  iterate : P Unit (Run.modify fun s => { s with iterations := s.iterations + 1 })
  assign : ∀ name value, P Bool (Run.assign name value)
  /-- A trace of the flow, unless it tells that a call is entered. -/
  flow : ∀ loc kind, kind.isFlow = true → (∀ name depth, kind ≠ .macroEntered name depth) →
    P Unit (Run.trace setup loc kind)
  cancelled : ∀ loc, P Unit (Run.checkCancelled setup loc)
  eval : ∀ e, P Value (Run.eval setup e)
  condition : ∀ e, P Bool (Run.evalCondition setup e)

namespace Machinery

variable {setup : Setup σ} {P : ∀ α : Type, Run σ α → Prop} (hP : Machinery setup P)
include hP

/-! ## Bodies -/

theorem hoist (statements : List Statement) : P Unit (Run.hoist statements) :=
  hP.scope fun env => (statements.filterMap Statement.macro?).foldl Env.define env

theorem openBody (body : Body Statement) : P (List Task) (Run.openBody body) :=
  hP.bind (hP.scope Env.push) fun _ => hP.bind (hP.hoist _) fun _ => hP.pure _

theorem openAlternative (body : Option (Body Statement)) :
    P (List Task) (Run.openAlternative body) := by
  cases body with
  | none => exact hP.pure []
  | some body => exact hP.openBody body

theorem openRound (name : String) (value : Int64) (body : Body Statement) :
    P (List Task) (Run.openRound name value body) :=
  hP.bind (hP.scope Env.push) fun _ => hP.bind (hP.scope _) fun _ =>
    hP.bind (hP.openBody body) fun _ => hP.pure _

/-! ## Statements -/

theorem evalInt (what : String) (e : Expr) : P Int64 (Run.evalInt setup what e) := by
  refine hP.bind (hP.eval e) fun value => ?_
  cases value with
  | int n => exact hP.pure n
  | _ => exact hP.fail _ _

theorem rangeStep (step : Option Expr) : P Int64 (Run.rangeStep setup step) := by
  cases step with
  | none => exact hP.pure 1
  | some e => exact hP.evalInt _ e

theorem bindVariable (name : String) (loc : Location) (value : Value) :
    P Unit (Run.bindVariable setup name loc value) :=
  hP.bind (hP.flow loc _ rfl nofun) fun _ => hP.scope _

theorem assignVariable (name : String) (loc : Location) (value : Value) :
    P Unit (Run.assignVariable setup name loc value) := by
  refine hP.bind (hP.assign name value) fun found => ?_
  cases found with
  | true => exact hP.flow loc _ rfl nofun
  | false => exact hP.fail _ loc

theorem checkLocated (statement : Statement) : P Unit (Run.checkLocated setup statement) := by
  unfold Run.checkLocated
  cases statement.loc? with
  | none => exact hP.pure ()
  | some loc => exact hP.cancelled loc

theorem openStatement (statement : Statement)
    (hcommand : ∀ name args loc, statement = .command name args loc →
      P (List Task) (Run.openCommand setup ⟨name, args, loc⟩)) :
    P (List Task) (Run.openStatement setup statement) := by
  cases statement with
  | define => exact hP.pure []
  | empty => exact hP.pure []
  | cond test yes no loc =>
    refine hP.bind (hP.condition test) fun taken => hP.bind (hP.flow loc _ rfl nofun) fun _ => ?_
    cases taken with
    | true => exact hP.openBody yes
    | false => exact hP.openAlternative no
  | repeatCount count body loc => exact hP.bind (hP.evalInt _ count) fun _ => hP.pure _
  | repeatRange name start stop step body loc =>
    refine hP.bind (hP.evalInt _ start) fun first => hP.bind (hP.evalInt _ stop) fun last =>
      hP.bind (hP.rangeStep step) fun stride => ?_
    split
    · exact hP.fail _ loc
    · exact hP.pure _
  | loop test body loc => exact hP.pure _
  | assert test message loc =>
    refine hP.bind (hP.condition test) fun passed => hP.bind (hP.flow loc _ rfl nofun) fun _ => ?_
    cases passed with
    | true => exact hP.pure []
    | false => exact hP.fail _ loc
  | bind name value loc =>
    exact hP.bind (hP.eval value) fun v => hP.bind (hP.bindVariable name loc v) fun _ => hP.pure []
  | assign name value loc =>
    exact hP.bind (hP.eval value) fun v =>
      hP.bind (hP.assignVariable name loc v) fun _ => hP.pure []
  | command name args loc => exact hcommand name args loc rfl
  | block body => exact hP.openBody body

/-! ## Tasks -/

/-- What follows the check at the start of an iteration. -/
theorem countIteration (loc : Location) (iteration : Nat) (binding : Option (String × Int64)) :
    P Unit (do
      modify fun state => { state with iterations := state.iterations + 1 }
      if setup.options.maxLoopIterations < (← Run.read (·.iterations)) then
        Run.fail (.iterationLimit setup.options.maxLoopIterations) loc
      else trace setup loc (.loopIteration iteration (binding.map Prod.fst)
        (binding.map Prod.snd))) := by
  refine hP.bind hP.iterate fun _ => hP.bind (hP.read _) fun begun => ?_
  split
  · exact hP.fail _ loc
  · exact hP.flow loc _ rfl nofun

theorem beginIteration (loc : Location) (iteration : Nat) (binding : Option (String × Int64)) :
    P Unit (Run.beginIteration setup loc iteration binding) :=
  hP.bind (hP.cancelled loc) fun _ => hP.countIteration loc iteration binding

theorem turn {more : Run σ Bool} {start : Run σ Unit} {opened : Run σ (List Task)}
    (hmore : P Bool more) (hstart : P Unit start) (hopened : P (List Task) opened)
    (again : List Task) : P Advance (Run.turn more start opened again) := by
  refine hP.bind hmore fun goes => ?_
  cases goes with
  | true => exact hP.bind hstart fun _ => hP.bind hopened fun _ => hP.pure _
  | false => exact hP.pure _

/-- One step of what is left to do, if the program is checked and commands are run with the
property, and so are calls closed. -/
theorem run (hvalidate : ∀ statements, P Unit (Run.validate setup statements))
    (hcommand : ∀ command, P (List Task) (Run.openCommand setup command))
    (hclose : P Unit (Run.modify fun s => { s with env := s.env.pop, depth := s.depth - 1 }))
    (task : Task) : P Advance (task.run setup) := by
  cases task with
  | whole program =>
    exact hP.bind (hvalidate program) fun _ => hP.bind (hP.hoist program) fun _ => hP.pure _
  | each statements =>
    cases statements with
    | nil => exact hP.pure _
    | cons statement rest =>
      exact hP.bind (hP.checkLocated statement) fun _ =>
        hP.bind (hP.openStatement statement fun _ _ _ _ => hcommand _) fun _ => hP.pure _
  | closeScope => exact hP.bind (hP.scope Env.pop) fun _ => hP.pure _
  | closeFrame => exact hP.bind hclose fun _ => hP.pure _
  | count loc n body i =>
    exact hP.turn (hP.pure _) (hP.beginIteration loc i none) (hP.openBody body) _
  | test loc e body i =>
    exact hP.turn (hP.condition e) (hP.beginIteration loc i none) (hP.openBody body) _
  | range loc name stop step body c =>
    exact hP.turn (hP.pure _) (hP.beginIteration loc c.iteration _)
      (hP.openRound name c.value body) _

end Machinery

end Run

end BlockScript
