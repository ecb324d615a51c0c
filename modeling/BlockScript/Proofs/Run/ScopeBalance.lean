import BlockScript.Proofs.Run.Agreement
import BlockScript.Proofs.Run.Steps
import BlockScript.Proofs.Scope.Names

/-!
# Scopes are closed on every way out

Whether a step of a run ends well or in a termination, it leaves as many scopes, call frames and
open calls as it has found. A body, a branch, a loop and a call leave the declarations of all these
scopes as well; a list of statements may add to the innermost scope.
-/
namespace BlockScript
set_option autoImplicit false

namespace Run

variable {σ : Type} {setup : Setup σ} {level : Nat}

/-- The same scopes and open calls; the innermost scope may declare something else. -/
structure Balanced (s t : State σ) : Prop where
  env : s.env.Continues t.env
  depth : t.depth = s.depth

/-- The same scopes with the same declarations, and the same open calls. -/
structure Enclosed (s t : State σ) : Prop where
  env : s.env.SameNames t.env
  depth : t.depth = s.depth

theorem Enclosed.balanced {s t : State σ} (h : Enclosed s t) : Balanced s t :=
  ⟨h.env.continues, h.depth⟩

theorem Enclosed.of_env {s t : State σ} (henv : t.env = s.env) (hdepth : t.depth = s.depth) :
    Enclosed s t :=
  ⟨henv ▸ .refl s.env, hdepth⟩

/-- What evaluates, commands or checks leaves the scopes as they are. -/
theorem enclosed (setup : Setup σ) : Elementary setup (fun _ => True) (Moves Enclosed) :=
  Moves.elementary setup (fun _ _ henv hdepth _ => .of_env henv hdepth)
    fun _ _ _ h h' => ⟨h.env.trans h'.env, h'.depth.trans h.depth⟩

/-! ## Scopes and frames -/

/-- A scope is closed, with all that it declares, however the step in it ends. -/
theorem enclosed_inScope {m : Run σ Unit} (h : Moves Balanced Unit m) :
    Moves Enclosed Unit (inScope m) := by
  intro s
  obtain ⟨henv, hdepth⟩ := h { s with env := s.env.push }
  exact ⟨henv.pop, hdepth⟩

theorem enclosed_inFrame (bound : List (String × Value)) {m : Run σ Unit}
    (h : Moves Balanced Unit m) : Moves Enclosed Unit (inFrame bound m) := by
  intro s
  let env :=
    bound.foldl (fun env binding => env.declare binding.1 binding.2) s.env.pushFrame
  obtain ⟨henv, hdepth⟩ := h { s with env := env, depth := s.depth + 1 }
  refine ⟨((Env.continues_declareAll bound s.env.pushFrame).trans henv).pop, ?_⟩
  exact congrArg (· - 1) hdepth

theorem enclosed_assign (name : String) (value : Value) :
    Moves Enclosed Bool (assign name value : Run σ Bool) := by
  intro s
  unfold assign
  cases hassign : s.env.assign? name value with
  | none => exact .of_env rfl rfl
  | some env => exact ⟨(Env.reassigns_of_assign? hassign).sameNames, rfl⟩

/-- No step of a run upsets the balance of scopes. -/
theorem balanced (setup : Setup σ) : Pervasive setup (Moves Balanced) where
  toElementary := Moves.elementary setup
    (fun _ _ henv hdepth _ => (Enclosed.of_env henv hdepth).balanced)
    fun _ _ _ h h' => ⟨h.env.trans h'.env, h'.depth.trans h.depth⟩
  unknown := fun _ _ s => ⟨(Env.SameNames.refl s.env).continues, rfl⟩
  iterate := fun s => ⟨(Env.SameNames.refl s.env).continues, rfl⟩
  declare := fun name value s => ⟨Env.continues_declare name value s.env, rfl⟩
  hoist := fun _ s => ⟨Env.continues_defineAll _ s.env, rfl⟩
  assign := fun name value s => (enclosed_assign name value s).balanced
  inScope := fun h s => (enclosed_inScope h s).balanced
  inFrame := fun bound _ h s => (enclosed_inFrame bound h s).balanced

/-! ## Statements and calls -/

theorem enclosed_body (setup : Setup σ) (level : Nat) (body : Body Statement) :
    Moves Enclosed Unit (execBody setup (enterAt setup level) body) := by
  obtain ⟨statements, loc⟩ := body
  have hP := balanced setup
  exact enclosed_inScope (hP.execStatements (hP.enterAt level) statements)

theorem enclosed_alternative (setup : Setup σ) (level : Nat) (body : Option (Body Statement)) :
    Moves Enclosed Unit (execAlternative setup (enterAt setup level) body) := by
  cases body with
  | none => exact (enclosed setup).pure ()
  | some body => exact enclosed_body setup level body

theorem enclosed_unknown (call : Call) (loc : Location) :
    Moves Enclosed Unit (fail (unknown call) loc : Run σ Unit) :=
  fun s => ⟨.refl s.env, rfl⟩

theorem enclosed_call (setup : Setup σ) (level : Nat) (command : CommandCall) (callee : Callee) :
    Moves Enclosed Unit (call setup (enterAt setup level) command callee) := by
  have hE := enclosed setup
  cases level with
  | zero => exact hE.fail _ rfl
  | succ level =>
    refine hE.bind (hE.bindArgs _ _ _ Pervasive.allJudged) fun bound => ?_
    refine hE.bind (hE.validateOnce enclosed_unknown callee) fun _ => ?_
    refine hE.bind (hE.read _) fun _ => hE.bind (hE.trace _ _) fun _ => ?_
    exact enclosed_inFrame bound ((balanced setup).execAt level callee.body)

theorem enclosed_beginIteration (setup : Setup σ) (loc : Location) (iteration : Nat)
    (binding : Option (String × Int64)) :
    Moves Enclosed Unit (beginIteration setup loc iteration binding) :=
  (enclosed setup).beginIteration (fun s => ⟨.refl s.env, rfl⟩) loc iteration binding

/-- The variable of a range is declared in a scope of its own. -/
theorem enclosed_round (setup : Setup σ) (level : Nat) (body : Body Statement) (name : String)
    (value : Value) :
    Moves Enclosed Unit (inScope do
      modify fun state => { state with env := state.env.declare name value }
      execBody setup (enterAt setup level) body) := by
  have hP := balanced setup
  exact enclosed_inScope
    (hP.bind (hP.declare name value) fun _ => hP.execBody (hP.enterAt level) body)

/-- Only the declaration of a variable changes what is declared around it. -/
theorem enclosed_statement (setup : Setup σ) (level : Nat) (statement : Statement) :
    (∃ name value loc, statement = .bind name value loc) ∨
      Moves Enclosed Unit (execStatement setup (enterAt setup level) statement) := by
  have hE := enclosed setup
  have hbody := enclosed_body setup level
  cases statement with
  | bind name value loc => exact .inl ⟨name, value, loc, rfl⟩
  | define name params body loc => exact .inr (hE.pure ())
  | empty => exact .inr (hE.pure ())
  | cond test yes no loc =>
    right
    refine hE.bind (hE.evalCondition Pervasive.allJudged) fun taken => ?_
    refine hE.bind (hE.trace loc _) fun _ => ?_
    cases taken with
    | true => exact hbody yes
    | false => exact enclosed_alternative setup level no
  | repeatCount count body loc =>
    right
    refine hE.bind (hE.evalInt _ Pervasive.allJudged) fun n => ?_
    exact hE.runRounds (fun _ => hE.pure _) (fun i => enclosed_beginIteration setup loc i none)
      (fun _ => hbody body) 0
  | repeatRange name start stop step body loc =>
    right
    refine hE.bind (hE.evalInt _ Pervasive.allJudged) fun first => ?_
    refine hE.bind (hE.evalInt _ Pervasive.allJudged) fun last => ?_
    refine hE.bind (hE.rangeStep fun _ _ => Pervasive.allJudged) fun stride => ?_
    split
    · exact hE.fail loc rfl
    · exact hE.runRounds (fun _ => hE.pure _)
        (fun c => enclosed_beginIteration setup loc c.iteration _)
        (fun c => enclosed_round setup level body name (.int c.value)) _
  | loop test body loc =>
    right
    exact hE.runRounds (fun _ => hE.evalCondition Pervasive.allJudged)
      (fun i => enclosed_beginIteration setup loc i none) (fun _ => hbody body) 0
  | assert test message loc =>
    right
    refine hE.bind (hE.evalCondition Pervasive.allJudged) fun passed => ?_
    refine hE.bind (hE.trace loc _) fun _ => ?_
    cases passed with
    | true => exact hE.pure ()
    | false => exact hE.fail loc rfl
  | assign name value loc =>
    right
    refine hE.bind (hE.eval value Pervasive.allJudged) fun v => ?_
    exact hE.assignVariable (enclosed_assign name v) loc
  | command name args loc =>
    right
    exact hE.execCommand Pervasive.allJudged enclosed_unknown (enclosed_call setup level _)
  | block body => exact .inr (hbody body)

/-- Evaluation changes no scope. -/
theorem eval_env (setup : Setup σ) (e : Expr) (s : State σ) : (eval setup e s).2.env = s.env := by
  have hE : Elementary setup (fun _ => True) (Moves fun s t : State σ => t.env = s.env) :=
    Moves.elementary setup (fun _ _ henv _ _ => henv) fun _ _ _ h h' => h'.trans h
  exact hE.eval e Pervasive.allJudged s

/-- An assignment gives a new value to the nearest binding in sight, or changes nothing and
terminates the run. -/
theorem assignVariable_env (setup : Setup σ) (name : String) (loc : Location) (value : Value)
    (s : State σ) :
    (assignVariable setup name loc value s).1 = .ok () ∧
        s.env.Reassigns name value (assignVariable setup name loc value s).2.env ∨
      (∃ x, (assignVariable setup name loc value s).1 = .error x) ∧
        (assignVariable setup name loc value s).2.env = s.env := by
  cases hassign : s.env.assign? name value with
  | none =>
    have hfalse : assign name value s = (.ok false, s) := by
      unfold assign
      rw [hassign]
    right
    rw [assignVariable, bind_ok hfalse]
    exact ⟨⟨_, rfl⟩, rfl⟩
  | some env =>
    have htrue : assign name value s = (.ok true, { s with env := env }) := by
      unfold assign
      rw [hassign]
    have hrun : assignVariable setup name loc value s =
        trace setup loc (.variableBound name value.render) { s with env := env } := bind_ok htrue
    left
    rw [hrun, trace_eq]
    exact ⟨rfl, Env.reassigns_of_assign? hassign⟩

/-- An assignment statement: its value is evaluated first, which changes no scope. -/
theorem assign_env (setup : Setup σ) (enter : Enter σ) (name : String) (e : Expr) (loc : Location)
    (s : State σ) :
    let after := execStatement setup enter (.assign name e loc) s
    (after.1 = .ok () ∧ ∃ value, s.env.Reassigns name value after.2.env) ∨
      (∃ x, after.1 = .error x) ∧ after.2.env = s.env := by
  dsimp only [execStatement]
  have henv := eval_env setup e s
  cases heval : eval setup e s with
  | mk answer s' =>
    rw [heval] at henv
    cases answer with
    | error x =>
      rw [bind_error heval]
      exact .inr ⟨⟨x, rfl⟩, henv⟩
    | ok value =>
      rw [bind_ok heval, ← henv]
      rcases assignVariable_env setup name loc value s' with ⟨hok, hnew⟩ | hfailed
      · exact .inl ⟨hok, value, hnew⟩
      · exact .inr hfailed

/-! ## Every way out -/

/-- Scopes are closed on every way out. Whatever the state and however the step ends, a statement, a
list of statements and a call leave the number of scopes, their frame flags and the number of open
calls. Only the declaration of a variable and the macros of a list can add a name, and only to the
innermost scope; every other statement, a body and a call leave the variable names and the macros of
all scopes. An assignment gives a new value to the nearest binding in sight and changes nothing
else; without such a binding it changes nothing and terminates the run. -/
theorem scopes_restored (setup : Setup σ) (level : Nat) (s : State σ) :
    let enter := enterAt setup level
    (∀ statement, (execStatement setup enter statement s).2.env.depth = s.env.depth ∧
      Balanced s (execStatement setup enter statement s).2) ∧
    (∀ statements, (execStatements setup enter statements s).2.env.depth = s.env.depth ∧
      Balanced s (execStatements setup enter statements s).2) ∧
    (∀ statement, (∃ name value loc, statement = .bind name value loc) ∨
      Enclosed s (execStatement setup enter statement s).2) ∧
    (∀ body, Enclosed s (execBody setup enter body s).2) ∧
    (∀ command callee, Enclosed s (call setup enter command callee s).2) ∧
    ∀ name e loc,
      let after := execStatement setup enter (.assign name e loc) s
      (after.1 = .ok () ∧ ∃ old value, s.env.get? name = some old ∧
        s.env.Reassigns name value after.2.env) ∨
      (∃ x, after.1 = .error x) ∧ after.2.env = s.env := by
  intro enter
  have hP := balanced setup
  refine ⟨fun statement => ?_, fun statements => ?_, fun statement => ?_,
    fun body => enclosed_body setup level body s,
    fun command callee => enclosed_call setup level command callee s, fun name e loc => ?_⟩
  · have h := hP.execStatement (hP.enterAt level) statement s
    exact ⟨h.env.depth, h⟩
  · have h := hP.execStatements (hP.enterAt level) statements s
    exact ⟨h.env.depth, h⟩
  · exact (enclosed_statement setup level statement).imp_right fun h => h s
  · rcases assign_env setup enter name e loc s with ⟨hok, value, hnew⟩ | hfailed
    · obtain ⟨old, hold⟩ := hnew.visible
      exact .inl ⟨hok, old, value, hold, hnew⟩
    · exact .inr hfailed

end Run

end BlockScript
