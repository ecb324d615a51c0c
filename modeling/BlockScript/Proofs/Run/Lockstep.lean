import BlockScript.Proofs.Run.Budget

/-!
# Programs side by side

The rules for expressions are carried to statements, calls and whole programs. Two setups may give
different budgets of iterations and calls, as long as the first gives no more than the second:
where the first one runs out, its run is cut off. What a single command does is a condition here,
since that is where the setups of interest differ.
-/
namespace BlockScript
set_option autoImplicit false

/-- Traces of control and variables, as opposed to those of commands and predicates. -/
def TraceKind.isFlow : TraceKind → Bool
  | predicateEvaluated .. => false
  | commandStarted .. => false
  | _ => true

namespace Run

variable {σ τ α ι : Type}

/-! ## Related states -/

/-- Two options that are related stay so under a wider relation. -/
theorem optionRel_mono {α β : Type} {R R' : α → β → Prop} {x : Option α} {y : Option β}
    (h : Option.Rel R x y) (hle : ∀ a b, R a b → R' a b) : Option.Rel R' x y := by
  cases h with
  | none => exact .none
  | some h => exact .some (hle _ _ h)

/-- A family of relations that goes along with the control of two runs. The number counts the scopes
that have been opened since the two were first related. -/
structure Tracks (R : Nat → State σ → State τ → Prop)
    (J : Outside σ → Outside τ → Prop) : Prop where
  sees : ∀ n, Sees (R n) J
  macros : ∀ {n s t}, R n s t → ∀ name, s.env.findMacro? name = t.env.findMacro? name
  iterations : ∀ {n s t}, R n s t → s.iterations = t.iterations
  depth : ∀ {n s t}, R n s t → s.depth = t.depth
  functions : ∀ {n s t}, R n s t → s.functions = t.functions
  validated : ∀ {n s t}, R n s t → s.validated = t.validated
  count : ∀ {n s t}, R n s t →
    R n { s with iterations := s.iterations + 1 } { t with iterations := t.iterations + 1 }
  learn : ∀ {n s t}, R n s t → ∀ name callee,
    R n { s with functions := s.functions.insert name callee }
      { t with functions := t.functions.insert name callee }
  vouch : ∀ {n s t}, R n s t → ∀ name,
    R n { s with validated := name :: s.validated } { t with validated := name :: t.validated }
  define : ∀ {n s t}, R n s t → ∀ macros : List Macro,
    R n { s with env := macros.foldl Env.define s.env }
      { t with env := macros.foldl Env.define t.env }
  declare : ∀ {n s t}, R n s t → ∀ name value,
    R n { s with env := s.env.declare name value } { t with env := t.env.declare name value }
  assign : ∀ {n s t}, R n s t → ∀ name value, Option.Rel
    (fun e f => R n { s with env := e } { t with env := f })
    (s.env.assign? name value) (t.env.assign? name value)
  push : ∀ {n s t}, R n s t →
    R (n + 1) { s with env := s.env.push } { t with env := t.env.push }
  pop : ∀ {n s t}, R (n + 1) s t → R n { s with env := s.env.pop } { t with env := t.env.pop }
  enter : ∀ {n s t}, R n s t → ∀ bound : List (String × Value),
    R (n + 1)
      { s with
        env := bound.foldl (fun env (name, value) => env.declare name value) s.env.pushFrame
        depth := s.depth + 1 }
      { t with
        env := bound.foldl (fun env (name, value) => env.declare name value) t.env.pushFrame
        depth := t.depth + 1 }
  leave : ∀ {n s t}, R (n + 1) s t →
    R n { s with env := s.env.pop, depth := s.depth - 1 }
      { t with env := t.env.pop, depth := t.depth - 1 }

/-- What the running of statements asks of such a family, whatever is known of macros and functions.
The variables that are `Known` are shown, and only those may be assigned. Macros are declared in
scopes that have been opened. -/
structure Walks (R : Nat → State σ → State τ → Prop)
    (J : Outside σ → Outside τ → Prop) (Known : String → Prop) : Prop where
  shows : ∀ n, Shows (R n) J
  vars : ∀ name, Known name → ∀ n, ShowsVar (R n) name
  iterations : ∀ {n s t}, R n s t → s.iterations = t.iterations
  depth : ∀ {n s t}, R n s t → s.depth = t.depth
  count : ∀ {n s t}, R n s t →
    R n { s with iterations := s.iterations + 1 } { t with iterations := t.iterations + 1 }
  define : ∀ {n s t}, R (n + 1) s t → ∀ macros : List Macro,
    R (n + 1) { s with env := macros.foldl Env.define s.env }
      { t with env := macros.foldl Env.define t.env }
  declare : ∀ {n s t}, R n s t → ∀ name value,
    R n { s with env := s.env.declare name value } { t with env := t.env.declare name value }
  assign : ∀ {n s t}, R n s t → ∀ name, Known name → ∀ value, Option.Rel
    (fun e f => R n { s with env := e } { t with env := f })
    (s.env.assign? name value) (t.env.assign? name value)
  push : ∀ {n s t}, R n s t →
    R (n + 1) { s with env := s.env.push } { t with env := t.env.push }
  pop : ∀ {n s t}, R (n + 1) s t → R n { s with env := s.env.pop } { t with env := t.env.pop }
  enter : ∀ {n s t}, R n s t → ∀ bound : List (String × Value),
    R (n + 1)
      { s with
        env := bound.foldl (fun env (name, value) => env.declare name value) s.env.pushFrame
        depth := s.depth + 1 }
      { t with
        env := bound.foldl (fun env (name, value) => env.declare name value) t.env.pushFrame
        depth := t.depth + 1 }
  leave : ∀ {n s t}, R (n + 1) s t →
    R n { s with env := s.env.pop, depth := s.depth - 1 }
      { t with env := t.env.pop, depth := t.depth - 1 }

theorem Tracks.walks {R : Nat → State σ → State τ → Prop} {J : Outside σ → Outside τ → Prop}
    (hR : Tracks R J) : Walks R J fun _ => True where
  shows := fun n => hR.sees n
  vars := fun name _ n _ _ h => (hR.sees n).vars h name
  iterations := hR.iterations
  depth := hR.depth
  count := hR.count
  define := hR.define
  declare := hR.declare
  assign := fun h name _ => hR.assign h name
  push := hR.push
  pop := hR.pop
  enter := hR.enter
  leave := hR.leave

/-- What lookups of functions and checks of names ask of a relation between states. The same names
are in sight, whatever the macros are that they mean. -/
structure Recalls (Q : State σ → State τ → Prop) (J : Outside σ → Outside τ → Prop) : Prop extends
    Sees Q J where
  inSight : ∀ {s t}, Q s t → ∀ name,
    (s.env.findMacro? name).isSome = (t.env.findMacro? name).isSome
  functions : ∀ {s t}, Q s t → s.functions = t.functions
  validated : ∀ {s t}, Q s t → s.validated = t.validated
  learn : ∀ {s t}, Q s t → ∀ name callee,
    Q { s with functions := s.functions.insert name callee }
      { t with functions := t.functions.insert name callee }
  vouch : ∀ {s t}, Q s t → ∀ name,
    Q { s with validated := name :: s.validated } { t with validated := name :: t.validated }

theorem Tracks.recalls {R : Nat → State σ → State τ → Prop} {J : Outside σ → Outside τ → Prop}
    (hR : Tracks R J) (n : Nat) : Recalls (R n) J where
  toSees := hR.sees n
  inSight := fun h name => congrArg Option.isSome (hR.macros h name)
  functions := hR.functions
  validated := hR.validated
  learn := hR.learn
  vouch := hR.vouch

/-- States with the same control whose outsides are related. -/
structure Alike (J : Outside σ → Outside τ → Prop) (s : State σ) (t : State τ) : Prop where
  outside : J s.outside t.outside
  env : s.env = t.env
  iterations : s.iterations = t.iterations
  depth : s.depth = t.depth
  functions : s.functions = t.functions
  validated : s.validated = t.validated

theorem Alike.tracks (J : Outside σ → Outside τ → Prop) : Tracks (fun _ => Alike J) J where
  sees := fun _ =>
    { outside := fun h => h.outside
      vars := fun h _ => h.env ▸ rfl
      update := fun h ho => { h with outside := ho } }
  macros := fun h _ => h.env ▸ rfl
  iterations := fun h => h.iterations
  depth := fun h => h.depth
  functions := fun h => h.functions
  validated := fun h => h.validated
  count := fun h => { h with iterations := congrArg (· + 1) h.iterations }
  learn := fun h name callee => { h with functions := congrArg (·.insert name callee) h.functions }
  vouch := fun h name => { h with validated := congrArg (name :: ·) h.validated }
  define := fun h macros => { h with env := congrArg (macros.foldl Env.define) h.env }
  declare := fun h name value => { h with env := congrArg (·.declare name value) h.env }
  assign := fun {_ s t} h name value => by
    rw [h.env]
    cases t.env.assign? name value with
    | none => exact .none
    | some env => exact .some { h with env := rfl }
  push := fun h => { h with env := congrArg Env.push h.env }
  pop := fun h => { h with env := congrArg Env.pop h.env }
  enter := fun h bound =>
    { h with
      env := congrArg (fun env => bound.foldl (fun env (name, value) => env.declare name value)
        env.pushFrame) h.env
      depth := congrArg (· + 1) h.depth }
  leave := fun h => { h with env := congrArg Env.pop h.env, depth := congrArg (· - 1) h.depth }

/-- No states are related; what is left of following is that the second run keeps a cut. -/
theorem Tracks.none (J : Outside σ → Outside τ → Prop) : Tracks (fun _ _ _ => False) J where
  sees := fun _ => ⟨⟨False.elim, fun h => h.elim⟩, False.elim⟩
  macros := False.elim
  iterations := False.elim
  depth := False.elim
  functions := False.elim
  validated := False.elim
  count := fun h => h
  learn := fun h => h.elim
  vouch := fun h => h.elim
  define := fun h => h.elim
  declare := fun h => h.elim
  assign := fun h => h.elim
  push := fun h => h
  pop := fun h => h
  enter := fun h => h.elim
  leave := fun h => h

/-- What must hold of two setups so that statements that are no commands go the same way until the
first run is cut. -/
structure SameFlow (a : Setup σ) (b : Setup τ) (J : Outside σ → Outside τ → Prop)
    (Cut : Termination → Outside σ → Outside τ → Prop) : Prop extends SameSight a b J Cut where
  cancelled : AsksAlike J a.context.cancelled b.context.cancelled
  flow : ∀ loc kind o p, kind.isFlow = true → J o p → J (o.traced a loc kind) (p.traced b loc kind)
  iterationLimit : a.options.maxLoopIterations ≤ b.options.maxLoopIterations
  iterationCut : a.options.maxLoopIterations < b.options.maxLoopIterations →
    ∀ loc (s : State σ) (t : State τ), J s.outside t.outside →
      Cut (terminate (.iterationLimit a.options.maxLoopIterations) loc [] s) s.outside t.outside

/-- What must hold of two setups so that their runs take the same course until the first is cut. -/
structure SameCourse (a : Setup σ) (b : Setup τ) (J : Outside σ → Outside τ → Prop)
    (Cut : Termination → Outside σ → Outside τ → Prop) : Prop extends SameSight a b J Cut where
  cancelled : AsksAlike J a.context.cancelled b.context.cancelled
  function : ∀ name, AsksAlike J
    (a.context.function a.options.actor name) (b.context.function b.options.actor name)
  command : ∀ call : CommandCall, Option.Rel
    (fun h h' => ∀ R, Sees R J → Follows R Cut (Run.dispatch a call h) (Run.dispatch b call h'))
    (a.context.registry.command? call.name) (b.context.registry.command? call.name)
  flow : ∀ loc kind o p, kind.isFlow = true → J o p → J (o.traced a loc kind) (p.traced b loc kind)
  iterationLimit : a.options.maxLoopIterations ≤ b.options.maxLoopIterations
  iterationCut : a.options.maxLoopIterations < b.options.maxLoopIterations →
    ∀ loc (s : State σ) (t : State τ), J s.outside t.outside →
      Cut (terminate (.iterationLimit a.options.maxLoopIterations) loc [] s) s.outside t.outside
  callDepth : a.options.maxCallDepth ≤ b.options.maxCallDepth
  depthCut : a.options.maxCallDepth < b.options.maxCallDepth →
    ∀ name loc (s : State σ) (t : State τ), J s.outside t.outside →
      Cut (terminate (.callDepth a.options.maxCallDepth name) loc [] s) s.outside t.outside

/-! ## Building blocks -/

section

variable {a : Setup σ} {b : Setup τ} {R : Nat → State σ → State τ → Prop} {n : Nat}
  {J : Outside σ → Outside τ → Prop} {Known : String → Prop}
  {Cut : Termination → Outside σ → Outside τ → Prop}

/-- Known variables are shown at every number of open scopes. -/
theorem Walks.showsVars (hR : Walks R J Known) {names : List String}
    (h : ∀ name ∈ names, Known name) (n : Nat) : ∀ name ∈ names, ShowsVar (R n) name :=
  fun name hname => hR.vars name (h name hname) n

namespace Follows

theorem inScope (hR : Walks R J Known) {m : Run σ α} {m' : Run τ α}
    (h : Follows (R (n + 1)) Cut m m') :
    Follows (R n) Cut (Run.inScope m) (Run.inScope m') := by
  constructor
  · intro s t hst
    have hagree := h.agree _ _ (hR.push hst)
    dsimp only [Run.inScope]
    generalize m _ = first, m' _ = second at hagree
    cases hagree with
    | both hafter => exact .both (hR.pop hafter)
    | cut hcut => exact .cut hcut
  · intro x o t hcut
    exact h.survives x o { t with env := t.env.push } hcut

theorem inFrame (hR : Walks R J Known) (bound : List (String × Value)) {m : Run σ α} {m' : Run τ α}
    (h : Follows (R (n + 1)) Cut m m') :
    Follows (R n) Cut (Run.inFrame bound m) (Run.inFrame bound m') := by
  constructor
  · intro s t hst
    have hagree := h.agree _ _ (hR.enter hst bound)
    dsimp only [Run.inFrame]
    generalize m _ = first, m' _ = second at hagree
    cases hagree with
    | both hafter => exact .both (hR.leave hafter)
    | cut hcut => exact .cut hcut
  · intro x o t hcut
    exact h.survives x o
      { t with
        env := bound.foldl (fun env (name, value) => env.declare name value) t.env.pushFrame
        depth := t.depth + 1 } hcut

theorem loop {Q : State σ → State τ → Prop} {first : Rounds σ ι} {second : Rounds τ ι}
    (hmore : ∀ i, Follows Q Cut (first.more i) (second.more i))
    (hstart : ∀ i, Follows Q Cut (first.start i) (second.start i))
    (hbody : ∀ i, Follows Q Cut (first.body i) (second.body i))
    (hnext : ∀ i, first.next i = second.next i) (left : Nat) (i : ι) :
    Follows Q Cut (Run.loop first left i) (Run.loop second left i) := by
  induction left generalizing i with
  | zero =>
    refine .bind (hmore i) fun more => ?_
    cases more with
    | true => exact hstart i
    | false => exact .pure ()
  | succ left ih =>
    refine .bind (hmore i) fun more => ?_
    cases more with
    | false => exact .pure ()
    | true =>
      refine .bind (hstart i) fun _ => .bind (hbody i) fun _ => ?_
      rw [hnext]
      cases second.next i with
      | none => exact .pure ()
      | some j => exact ih j

end Follows

namespace SameSight

variable {Q : State σ → State τ → Prop}

theorem hasPredicate (hs : SameSight a b J Cut) (name : String) :
    a.context.registry.hasPredicate name = b.context.registry.hasPredicate name := by
  have h := hs.predicate name
  revert h
  unfold Registry.hasPredicate Registry.predicate? Dict.contains
  cases a.context.registry.predicates.get? name <;>
    cases b.context.registry.predicates.get? name <;> intro h
  · rfl
  · cases h
  · cases h
  · rfl

/-! ### Stored functions -/

theorem failBody (hs : SameSight a b J Cut) (hR : Shows Q J) (function : StoredFunction)
    (loc : Location) (error : SyntaxError) :
    Follows Q Cut (Run.failBody function loc error : Run σ α)
      (Run.failBody function loc error) := by
  constructor
  · intro s t h
    have hstamp : s.journal.createdAt = t.journal.createdAt :=
      hs.stamp _ _ (hR.outside h)
    unfold Run.failBody
    rw [hstamp]
    exact .both h
  · intro _ _ _ h
    exact h

theorem loadParam (hs : SameSight a b J Cut) (hR : Shows Q J) (function : String)
    (loc : Location) (param : FunctionParam) :
    Follows Q Cut (Run.loadParam function loc param : Run σ CallParam)
      (Run.loadParam function loc param) := by
  unfold Run.loadParam
  cases param.default with
  | none => exact .pure _
  | some json =>
    dsimp only
    cases Value.ofJson? param.type json with
    | none => exact hs.fail hR _ loc
    | some value => exact .pure _

theorem loadParams (hs : SameSight a b J Cut) (hR : Shows Q J) (function : String)
    (loc : Location) (params : List FunctionParam) :
    Follows Q Cut (Run.loadParams function loc params : Run σ (List CallParam))
      (Run.loadParams function loc params) := by
  induction params with
  | nil => exact .pure _
  | cons param rest ih =>
    exact .bind (hs.loadParam hR function loc param) fun _ => .bind ih fun _ => .pure _

theorem loadFound (hs : SameSight a b J Cut) (hR : Shows Q J) (loc : Location)
    (found : Option StoredFunction) :
    Follows Q Cut (Run.loadFound loc found : Run σ (Option Callee))
      (Run.loadFound loc found) := by
  cases found with
  | none => exact .pure none
  | some function =>
    refine .bind ?_ fun _ => .pure _
    unfold Run.load
    cases parse function.body with
    | error e => exact hs.failBody hR function loc e
    | ok body => exact .bind (hs.loadParams hR _ loc _) fun _ => .pure _

end SameSight

namespace SameFlow

theorem checkCancelled (hc : SameFlow a b J Cut) (hR : Walks R J Known) (loc : Location) :
    Follows (R n) Cut (Run.checkCancelled a loc) (Run.checkCancelled b loc) := by
  refine .bind (hc.ask (hR.shows n) hc.cancelled) fun stopped => ?_
  cases stopped with
  | true => exact hc.fail (hR.shows n) _ loc
  | false => exact .pure ()

theorem flowTrace (hc : SameFlow a b J Cut) (hR : Walks R J Known) (loc : Location)
    {kind : TraceKind} (h : kind.isFlow = true) :
    Follows (R n) Cut (Run.trace a loc kind) (Run.trace b loc kind) :=
  hc.trace (hR.shows n) fun o p => hc.flow loc kind o p h

/-! ### Loops -/

theorem beginIteration (hc : SameFlow a b J Cut) (hR : Walks R J Known) (loc : Location)
    (iteration : Nat) (binding : Option (String × Int64)) :
    Follows (R n) Cut (Run.beginIteration a loc iteration binding)
      (Run.beginIteration b loc iteration binding) := by
  refine .bind (hc.checkCancelled hR loc) fun _ =>
    .bind (.modify (fun s t h => hR.count h) fun _ => rfl) fun _ =>
      .bind (.read fun s t h => hR.iterations h) fun begun => ?_
  have hflow : Follows (R n) Cut
      (Run.trace a loc (.loopIteration iteration (binding.map Prod.fst) (binding.map Prod.snd)))
      (Run.trace b loc (.loopIteration iteration (binding.map Prod.fst) (binding.map Prod.snd))) :=
    hc.flowTrace hR loc rfl
  rcases Nat.eq_or_lt_of_le hc.iterationLimit with heq | hlt
  · rw [heq]
    split
    · exact hc.fail (hR.shows n) _ loc
    · exact hflow
  · by_cases hfirst : a.options.maxLoopIterations < begun
    · rw [if_pos hfirst]
      have hsecond : Lasts Cut
          (if b.options.maxLoopIterations < begun then
              Run.fail (.iterationLimit b.options.maxLoopIterations) loc
            else
              Run.trace b loc (.loopIteration iteration (binding.map Prod.fst)
                (binding.map Prod.snd)) : Run τ Unit) := by
        intro x o t hcut
        split
        · exact hcut
        · exact hflow.survives x o t hcut
      refine ⟨fun s t hst => .cut (hsecond _ _ _ ?_), hsecond⟩
      exact hc.iterationCut hlt loc s t ((hR.shows n).outside hst)
    · have hsecond : ¬ b.options.maxLoopIterations < begun := by omega
      rw [if_neg hfirst, if_neg hsecond]
      exact hflow

theorem runRounds (hc : SameFlow a b J Cut) {Q : State σ → State τ → Prop} {first : Rounds σ ι}
    {second : Rounds τ ι} (hfirst : Paced a.options.maxLoopIterations first)
    (hsecond : Paced b.options.maxLoopIterations second)
    (hloop : ∀ left i, Follows Q Cut (Run.loop first left i) (Run.loop second left i)) (i : ι) :
    Follows Q Cut (Run.runRounds a first i) (Run.runRounds b second i) := by
  constructor
  · intro s t hst
    -- Both recursions may count down from the larger budget.
    rw [runRounds_eq hfirst i s hc.iterationLimit, runRounds_eq hsecond i t (Nat.le_refl _)]
    exact (hloop _ i).agree s t hst
  · intro x o t hcut
    rw [runRounds_eq hsecond i t (Nat.le_refl _)]
    exact (hloop _ i).survives x o t hcut

/-! ### Variables -/

theorem bindVariable (hc : SameFlow a b J Cut) (hR : Walks R J Known) (name : String)
    (loc : Location) (value : Value) :
    Follows (R n) Cut (Run.bindVariable a name loc value) (Run.bindVariable b name loc value) :=
  .bind (hc.flowTrace hR loc rfl) fun _ =>
    .modify (fun _ _ h => hR.declare h name value) fun _ => rfl

theorem assign (hR : Walks R J Known) {name : String} (hname : Known name) (value : Value) :
    Follows (R n) Cut (Run.assign name value : Run σ Bool) (Run.assign name value) := by
  constructor
  · intro s t hst
    have hassign := hR.assign hst name hname value
    unfold Run.assign
    revert hassign
    cases s.env.assign? name value <;> cases t.env.assign? name value <;> intro hassign
    · exact .both hst
    · cases hassign
    · cases hassign
    · cases hassign with
      | some h => exact .both h
  · intro x o t hcut
    unfold Run.assign
    cases t.env.assign? name value <;> exact hcut

theorem assignVariable (hc : SameFlow a b J Cut) (hR : Walks R J Known) {name : String}
    (hname : Known name) (loc : Location) (value : Value) :
    Follows (R n) Cut (Run.assignVariable a name loc value)
      (Run.assignVariable b name loc value) := by
  refine .bind (assign hR hname value) fun found => ?_
  cases found with
  | true => exact hc.flowTrace hR loc rfl
  | false => exact hc.fail (hR.shows n) _ loc

theorem rangeStep (hc : SameFlow a b J Cut) (hR : Walks R J Known) {step : Option Expr}
    (hstep : ∀ name ∈ (step.map Variables.ofExpr).getD [], Known name) :
    Follows (R n) Cut (Run.rangeStep a step) (Run.rangeStep b step) := by
  cases step with
  | none => exact .pure 1
  | some e => exact hc.evalInt_of_vars (hR.shows n) _ (hR.showsVars hstep n)

theorem checkLocated (hc : SameFlow a b J Cut) (hR : Walks R J Known) (statement : Statement) :
    Follows (R n) Cut (Run.checkLocated a statement) (Run.checkLocated b statement) := by
  unfold Run.checkLocated
  cases statement.loc? with
  | none => exact .pure ()
  | some loc => exact hc.checkCancelled hR loc

theorem hoist (hR : Walks R J Known) (statements : List Statement) :
    Follows (R (n + 1)) Cut (Run.hoist statements : Run σ Unit) (Run.hoist statements) :=
  .modify (fun _ _ h => hR.define h _) fun _ => rfl

theorem countLoop (hc : SameFlow a b J Cut) (hR : Walks R J Known) (loc : Location) (count : Int64)
    {body : Run σ Unit} {body' : Run τ Unit} (hbody : Follows (R n) Cut body body')
    (hfirst : Steady body) (hsecond : Steady body') :
    Follows (R n) Cut (Run.runRounds a (countRounds a loc count body) 0)
      (Run.runRounds b (countRounds b loc count body') 0) := by
  refine hc.runRounds (.count loc count hfirst) (.count loc count hsecond) ?_ 0
  exact .loop (fun _ => .pure _) (fun i => hc.beginIteration hR loc i none) (fun _ => hbody)
    fun _ => rfl

theorem testLoop (hc : SameFlow a b J Cut) (hR : Walks R J Known) (loc : Location) {test : Expr}
    (hknown : ∀ name ∈ Variables.ofExpr test, Known name) {body : Run σ Unit} {body' : Run τ Unit}
    (hbody : Follows (R n) Cut body body') (hfirst : Steady body) (hsecond : Steady body') :
    Follows (R n) Cut (Run.runRounds a (whileRounds a loc (Run.evalCondition a test) body) 0)
      (Run.runRounds b (whileRounds b loc (Run.evalCondition b test) body') 0) := by
  have htest := (Steady.pervasive a).evalCondition (e := test) Pervasive.allJudged
  have htest' := (Steady.pervasive b).evalCondition (e := test) Pervasive.allJudged
  refine hc.runRounds (.test loc htest hfirst) (.test loc htest' hsecond) ?_ 0
  exact .loop (fun _ => hc.evalCondition_of_vars (hR.shows n) (hR.showsVars hknown n))
    (fun i => hc.beginIteration hR loc i none) (fun _ => hbody) fun _ => rfl

theorem rangeLoop (hc : SameFlow a b J Cut) (hR : Walks R J Known) (loc : Location) (name : String)
    (stop step : Int64) {body : Run σ Unit} {body' : Run τ Unit}
    (hbody : Follows (R (n + 1)) Cut body body') (hfirst : Steady body) (hsecond : Steady body')
    (first : Counter) :
    Follows (R n) Cut (Run.runRounds a (rangeRounds a loc name stop step body) first)
      (Run.runRounds b (rangeRounds b loc name stop step body') first) := by
  refine hc.runRounds (.range loc name stop step hfirst)
    (.range loc name stop step hsecond) ?_ first
  refine .loop (fun _ => .pure _) (fun c => hc.beginIteration hR loc c.iteration _) (fun c => ?_)
    fun _ => rfl
  have hdeclare : Follows (R (n + 1)) Cut
      (modify fun s : State σ => { s with env := s.env.declare name (.int c.value) })
      (modify fun t : State τ => { t with env := t.env.declare name (.int c.value) }) :=
    .modify (fun _ _ h => hR.declare h name _) fun _ => rfl
  exact Follows.inScope hR (hdeclare.bind fun _ => hbody)

end SameFlow

/-! ## Statements -/

/-- Commands of both runs follow each other at every number of open scopes, where their arguments
read known variables alone. -/
structure Executes (a : Setup σ) (b : Setup τ) (R : Nat → State σ → State τ → Prop)
    (Known : String → Prop) (Cut : Termination → Outside σ → Outside τ → Prop) (enter : Enter σ)
    (enter' : Enter τ) : Prop where
  steady : ∀ run ∈ enter, ∀ body, Steady (run body)
  steady' : ∀ run ∈ enter', ∀ body, Steady (run body)
  command : ∀ n command, (∀ name ∈ Variables.ofArgs command.args, Known name) →
    Follows (R n) Cut (Run.execCommand a enter command) (Run.execCommand b enter' command)

section

variable {enter : Enter σ} {enter' : Enter τ}

theorem Executes.steadyBody (h : Executes a b R Known Cut enter enter') (body : Body Statement) :
    Steady (Run.execBody a enter body) :=
  (Steady.pervasive a).execBody h.steady body

theorem Executes.steadyBody' (h : Executes a b R Known Cut enter enter') (body : Body Statement) :
    Steady (Run.execBody b enter' body) :=
  (Steady.pervasive b).execBody h.steady' body

namespace SameFlow

mutual

theorem execStatement (hc : SameFlow a b J Cut) (hR : Walks R J Known)
    (henter : Executes a b R Known Cut enter enter') :
    ∀ (statement : Statement), (∀ name ∈ Variables.ofStatement statement, Known name) →
      ∀ n, Follows (R n) Cut
        (Run.execStatement a enter statement) (Run.execStatement b enter' statement)
  | .define .., _, _ => .pure ()
  | .empty, _, _ => .pure ()
  | .cond test yes no loc, h, n => by
    rw [Variables.ofStatement, List.forall_mem_append, List.forall_mem_append] at h
    obtain ⟨⟨htest, hyes⟩, hno⟩ := h
    refine .bind (hc.evalCondition_of_vars (hR.shows n) (hR.showsVars htest n)) fun taken =>
      .bind (hc.flowTrace hR loc rfl) fun _ => ?_
    cases taken with
    | true => exact execBody hc hR henter yes hyes n
    | false => exact execAlternative hc hR henter no hno n
  | .repeatCount count body loc, h, n => by
    rw [Variables.ofStatement, List.forall_mem_append] at h
    exact .bind (hc.evalInt_of_vars (hR.shows n) _ (hR.showsVars h.1 n)) fun m =>
      hc.countLoop hR loc m (execBody hc hR henter body h.2 n)
        (henter.steadyBody body) (henter.steadyBody' body)
  | .repeatRange name start stop step body loc, h, n => by
    rw [Variables.ofStatement, List.forall_mem_append, List.forall_mem_append,
      List.forall_mem_append] at h
    obtain ⟨⟨⟨hstart, hstop⟩, hstep⟩, hbody⟩ := h
    refine .bind (hc.evalInt_of_vars (hR.shows n) _ (hR.showsVars hstart n)) fun first =>
      .bind (hc.evalInt_of_vars (hR.shows n) _ (hR.showsVars hstop n)) fun last =>
        .bind (hc.rangeStep hR hstep) fun stride => ?_
    split
    · exact hc.fail (hR.shows n) _ loc
    · exact hc.rangeLoop hR loc name last stride (execBody hc hR henter body hbody (n + 1))
        (henter.steadyBody body) (henter.steadyBody' body) _
  | .loop test body loc, h, n => by
    rw [Variables.ofStatement, List.forall_mem_append] at h
    exact hc.testLoop hR loc h.1 (execBody hc hR henter body h.2 n)
      (henter.steadyBody body) (henter.steadyBody' body)
  | .assert test message loc, h, n => by
    refine .bind (hc.evalCondition_of_vars (hR.shows n) (hR.showsVars h n)) fun passed =>
      .bind (hc.flowTrace hR loc rfl) fun _ => ?_
    cases passed with
    | true => exact .pure ()
    | false => exact hc.fail (hR.shows n) _ loc
  | .bind name value loc, h, n =>
    .bind (hc.eval_of_vars (hR.shows n) value (hR.showsVars h n)) fun v =>
      hc.bindVariable hR name loc v
  | .assign name value loc, h, n => by
    rw [Variables.ofStatement, List.forall_mem_cons] at h
    exact .bind (hc.eval_of_vars (hR.shows n) value (hR.showsVars h.2 n)) fun v =>
      hc.assignVariable hR h.1 loc v
  | .command name args loc, h, n => henter.command n ⟨name, args, loc⟩ h
  | .block body, h, n => execBody hc hR henter body h n

theorem execBody (hc : SameFlow a b J Cut) (hR : Walks R J Known)
    (henter : Executes a b R Known Cut enter enter') :
    ∀ (body : Body Statement), (∀ name ∈ Variables.ofBody body, Known name) → ∀ n,
      Follows (R n) Cut (Run.execBody a enter body) (Run.execBody b enter' body)
  | ⟨statements, _⟩, h, n =>
    .inScope hR (.bind (hoist hR statements) fun _ =>
      execEach hc hR henter statements h (n + 1))

theorem execAlternative (hc : SameFlow a b J Cut) (hR : Walks R J Known)
    (henter : Executes a b R Known Cut enter enter') :
    ∀ (body : Option (Body Statement)), (∀ name ∈ Variables.ofAlternative body, Known name) →
      ∀ n, Follows (R n) Cut
        (Run.execAlternative a enter body) (Run.execAlternative b enter' body)
  | none, _, _ => .pure ()
  | some body, h, n => execBody hc hR henter body h n

theorem execEach (hc : SameFlow a b J Cut) (hR : Walks R J Known)
    (henter : Executes a b R Known Cut enter enter') :
    ∀ (statements : List Statement), (∀ name ∈ Variables.ofStatements statements, Known name) →
      ∀ n, Follows (R n) Cut
        (Run.execEach a enter statements) (Run.execEach b enter' statements)
  | [], _, _ => .pure ()
  | statement :: rest, h, n => by
    rw [Variables.ofStatements, List.forall_mem_append] at h
    exact .bind (hc.checkLocated hR statement) fun _ =>
      .bind (execStatement hc hR henter statement h.1 n) fun _ =>
        execEach hc hR henter rest h.2 n

end

end SameFlow

end

/-! ## Calls -/

theorem hasCommand_of_rel {P : CommandHandler σ → CommandHandler τ → Prop} {name : String}
    (h : Option.Rel P (a.context.registry.command? name) (b.context.registry.command? name)) :
    a.context.registry.hasCommand name = b.context.registry.hasCommand name := by
  revert h
  unfold Registry.hasCommand Registry.command? Dict.contains
  cases a.context.registry.commands.get? name <;> cases b.context.registry.commands.get? name <;>
    intro h
  · rfl
  · cases h
  · cases h
  · rfl

theorem SameCourse.sameFlow (hc : SameCourse a b J Cut) : SameFlow a b J Cut where
  toSameSight := hc.toSameSight
  cancelled := hc.cancelled
  flow := hc.flow
  iterationLimit := hc.iterationLimit
  iterationCut := hc.iterationCut

namespace SameCourse

theorem hasCommand (hc : SameCourse a b J Cut) (name : String) :
    a.context.registry.hasCommand name = b.context.registry.hasCommand name :=
  hasCommand_of_rel (hc.command ⟨name, [], default⟩)

theorem flowTrace (hc : SameCourse a b J Cut) (hR : Tracks R J) (loc : Location) {kind : TraceKind}
    (h : kind.isFlow = true) :
    Follows (R n) Cut (Run.trace a loc kind) (Run.trace b loc kind) :=
  hc.sameFlow.flowTrace hR.walks loc h

section

variable {Q : State σ → State τ → Prop}

theorem fetch (hc : SameCourse a b J Cut) (hQ : Recalls Q J) (name : String) (loc : Location) :
    Follows Q Cut (Run.fetch a name loc) (Run.fetch b name loc) := by
  refine .bind (.read fun s t h => by rw [hQ.functions h]) fun known => ?_
  cases known with
  | some callee => exact .pure callee
  | none =>
    refine .bind (hc.ask hQ.toShows (hc.function name)) fun answer => ?_
    cases answer with
    | error e => exact hc.fail hQ.toShows _ loc
    | ok found =>
      exact .bind (hc.loadFound hQ.toShows loc found) fun callee =>
        .bind (.modify (fun s t h => hQ.learn h name callee) fun _ => rfl) fun _ => .pure callee

theorem isKnown (hc : SameCourse a b J Cut) (hQ : Recalls Q J) (declared : List String)
    (call : Call) :
    Follows Q Cut (Run.isKnown a declared call) (Run.isKnown b declared call) := by
  unfold Run.isKnown
  rw [hc.hasPredicate, hc.hasCommand]
  split
  · exact .pure _
  · -- Of a macro in sight only counts that there is one.
    have hlooked : Follows Q Cut
        (Run.read fun s => (s.env.findMacro? call.name).isSome)
        (Run.read fun t => (t.env.findMacro? call.name).isSome) :=
      .read fun s t h => hQ.inSight h call.name
    have hfetched : ∀ found : Bool, Follows Q Cut
        (if declared.contains call.name || found || b.context.registry.hasCommand call.name then
            pure true
          else do return (← Run.fetch a call.name call.loc).isSome : Run σ Bool)
        (if declared.contains call.name || found || b.context.registry.hasCommand call.name then
            pure true
          else do return (← Run.fetch b call.name call.loc).isSome : Run τ Bool) := by
      intro found
      split
      · exact .pure _
      · exact .bind (hc.fetch hQ _ _) fun _ => .pure _
    exact hlooked.bind hfetched

theorem validate (hc : SameCourse a b J Cut) (hQ : Recalls Q J) (statements : List Statement) :
    Follows Q Cut (Run.validate a statements) (Run.validate b statements) := by
  unfold Run.validate
  induction Program.calls statements with
  | nil => exact .pure ()
  | cons call rest ih =>
    refine .bind (hc.isKnown hQ _ call) fun known => ?_
    cases known with
    | true => exact ih
    | false => exact hc.fail hQ.toShows _ _

theorem validateOnce (hc : SameCourse a b J Cut) (hQ : Recalls Q J) (callee : Callee) :
    Follows Q Cut (Run.validateOnce a callee) (Run.validateOnce b callee) := by
  unfold Run.validateOnce
  cases callee.stored with
  | none => exact .pure ()
  | some name =>
    refine .bind (.read fun s t h => by rw [hQ.validated h]) fun done => ?_
    cases done with
    | true => exact .pure ()
    | false =>
      exact .bind (hc.validate hQ callee.body) fun _ =>
        .modify (fun s t h => hQ.vouch h name) fun _ => rfl

end

/-! ### Calls -/

/-- Two callees with the same parameters are called alike, if their bodies are checked alike and run
alike. -/
theorem callBoth (hc : SameCourse a b J Cut) (hR : Walks R J Known) (hsees : Sees (R n) J)
    {run : List Statement → Run σ Unit} {run' : List Statement → Run τ Unit}
    {callee callee' : Callee} (hparams : callee.params = callee'.params)
    (hcheck : Follows (R n) Cut (Run.validateOnce a callee) (Run.validateOnce b callee'))
    (hrun : Follows (R (n + 1)) Cut (run callee.body) (run' callee'.body))
    (command : CommandCall) :
    Follows (R n) Cut (Run.call a (some run) command callee)
      (Run.call b (some run') command callee') := by
  unfold Run.call
  rw [hparams]
  refine .bind (hc.bindArgs hsees _ _ _ _) fun bound =>
    .bind hcheck fun _ =>
      .bind (.read fun s t h => by rw [hR.depth h]) fun depth =>
        .bind (hc.sameFlow.flowTrace hR _ rfl) fun _ => ?_
  exact .inFrame hR bound hrun

theorem call (hc : SameCourse a b J Cut) (hR : Tracks R J) {run : List Statement → Run σ Unit}
    {run' : List Statement → Run τ Unit}
    (hrun : ∀ n body, Follows (R n) Cut (run body) (run' body)) (command : CommandCall)
    (callee : Callee) :
    Follows (R n) Cut (Run.call a (some run) command callee)
      (Run.call b (some run') command callee) :=
  hc.callBoth hR.walks (hR.sees n) rfl (hc.validateOnce (hR.recalls n) callee)
    (hrun (n + 1) callee.body) command

/-- Both setups allow the same number of calls, and neither allows another. -/
theorem refuse (hc : SameCourse a b J Cut) (hR : Walks R J Known)
    (hlimit : a.options.maxCallDepth = b.options.maxCallDepth) (command : CommandCall)
    (callee callee' : Callee) :
    Follows (R n) Cut (Run.call a none command callee) (Run.call b none command callee') := by
  unfold Run.call
  rw [hlimit]
  exact hc.fail (hR.shows n) _ _

/-- The first setup allows no further call where the second one may. -/
theorem cutCall (hc : SameCourse a b J Cut) (hR : Tracks R J)
    (hlimit : a.options.maxCallDepth < b.options.maxCallDepth) {m : Run τ Unit}
    (hm : Lasts Cut m) (command : CommandCall) (callee : Callee) :
    Follows (R n) Cut (Run.call a none command callee) m := by
  constructor
  · intro s t hst
    refine .cut (hm _ _ _ ?_)
    exact hc.depthCut hlimit _ _ s t ((hR.sees n).outside hst)
  · exact hm

end SameCourse

/-- Calls of both runs follow each other at every number of open scopes. -/
structure Enters (a : Setup σ) (b : Setup τ) (R : Nat → State σ → State τ → Prop)
    (Cut : Termination → Outside σ → Outside τ → Prop) (enter : Enter σ) (enter' : Enter τ) :
    Prop where
  steady : ∀ run ∈ enter, ∀ body, Steady (run body)
  steady' : ∀ run ∈ enter', ∀ body, Steady (run body)
  call : ∀ n command callee,
    Follows (R n) Cut (Run.call a enter command callee) (Run.call b enter' command callee)

/-- What a command does whose name means no macro. -/
def execUnscoped (setup : Setup σ) (enter : Enter σ) (command : CommandCall) : Run σ Unit :=
  match setup.context.registry.command? command.name with
  | some handler => dispatch setup command handler
  | none => do
    match ← Run.fetch setup command.name command.loc with
    | some callee => Run.call setup enter command callee
    | none => fail (.unknownCommand command.name) command.loc

namespace SameCourse

variable {enter : Enter σ} {enter' : Enter τ}

/-- A name that means no macro is looked up in the registry, and then in the store. -/
theorem execUnscoped (hc : SameCourse a b J Cut) (hQ : Recalls (R n) J)
    (command : CommandCall)
    (hcall : ∀ callee, Follows (R n) Cut (Run.call a enter command callee)
      (Run.call b enter' command callee)) :
    Follows (R n) Cut (Run.execUnscoped a enter command) (Run.execUnscoped b enter' command) := by
  have hcommand := hc.command command
  unfold Run.execUnscoped
  revert hcommand
  cases a.context.registry.command? command.name <;>
    cases b.context.registry.command? command.name <;> intro hcommand
  · refine .bind (hc.fetch hQ _ _) fun callee => ?_
    cases callee with
    | some callee => exact hcall callee
    | none => exact hc.fail hQ.toShows _ _
  · cases hcommand
  · cases hcommand
  · cases hcommand with
    | some h => exact h (R n) hQ.toSees

theorem execCommand (hc : SameCourse a b J Cut) (hR : Tracks R J)
    (henter : Enters a b R Cut enter enter') (command : CommandCall) :
    Follows (R n) Cut (Run.execCommand a enter command) (Run.execCommand b enter' command) := by
  refine .bind (.read fun s t h => hR.macros h command.name) fun found => ?_
  cases found with
  | some m => exact henter.call n command _
  | none => exact hc.execUnscoped (hR.recalls n) command (henter.call n command)

theorem executes (hc : SameCourse a b J Cut) (hR : Tracks R J)
    (henter : Enters a b R Cut enter enter') :
    Executes a b R (fun _ => True) Cut enter enter' where
  steady := henter.steady
  steady' := henter.steady'
  command := fun _ command _ => hc.execCommand hR henter command

theorem execStatements (hc : SameCourse a b J Cut) (hR : Tracks R J)
    (henter : Enters a b R Cut enter enter') (statements : List Statement) (n : Nat) :
    Follows (R n) Cut (Run.execStatements a enter statements)
      (Run.execStatements b enter' statements) :=
  .bind (.modify (fun _ _ h => hR.define h _) fun _ => rfl) fun _ =>
    hc.sameFlow.execEach hR.walks (hc.executes hR henter) statements (fun _ _ => trivial) n

/-! ## Whole programs -/

theorem enters_some (hc : SameCourse a b J Cut) (hR : Tracks R J) {levels levels' : Nat}
    (h : ∀ n body, Follows (R n) Cut (Run.execAt a levels body) (Run.execAt b levels' body)) :
    Enters a b R Cut (some (Run.execAt a levels)) (some (Run.execAt b levels')) where
  steady := by
    intro run hrun body
    cases hrun
    exact (Steady.pervasive a).execAt levels body
  steady' := by
    intro run hrun body
    cases hrun
    exact (Steady.pervasive b).execAt levels' body
  call := fun _ command callee => hc.call hR h command callee

/-- After a cut the second run keeps it, however many calls it may open. -/
theorem execAt_lasts (hc : SameCourse a b J Cut) (levels : Nat) (statements : List Statement) :
    Follows (fun _ _ => False) Cut (Run.execAt a levels statements)
      (Run.execAt b levels statements) := by
  have hR : Tracks (fun (_ : Nat) (_ : State σ) (_ : State τ) => False) J := .none J
  induction levels generalizing statements with
  | zero =>
    refine hc.execStatements hR ⟨?_, ?_, ?_⟩ statements 0
    · intro run hrun
      cases hrun
    · intro run hrun
      cases hrun
    · intro _ command callee
      exact ⟨fun _ _ h => h.elim, fun _ _ _ h => h⟩
  | succ levels ih =>
    exact hc.execStatements hR (hc.enters_some hR fun _ body => ih body) statements 0

theorem call_lasts (hc : SameCourse a b J Cut) (levels : Nat) (command : CommandCall)
    (callee : Callee) :
    Lasts Cut (Run.call b (some (Run.execAt b levels)) command callee) := by
  have hR : Tracks (fun (_ : Nat) (_ : State σ) (_ : State τ) => False) J := .none J
  have h : Follows (fun _ _ => False) Cut (Run.call a (some (Run.execAt a levels)) command callee)
      (Run.call b (some (Run.execAt b levels)) command callee) :=
    (hc.enters_some hR fun _ body => hc.execAt_lasts levels body).call 0 command callee
  exact h.survives

/-- The second run has as many more levels below the first one as its setup allows more calls. -/
theorem execAt (hc : SameCourse a b J Cut) (hR : Tracks R J) (levels : Nat)
    (statements : List Statement) (n : Nat) :
    Follows (R n) Cut (Run.execAt a levels statements)
      (Run.execAt b (levels + (b.options.maxCallDepth - a.options.maxCallDepth)) statements) := by
  induction levels generalizing statements n with
  | succ levels ih =>
    rw [Nat.succ_add]
    exact hc.execStatements hR (hc.enters_some hR fun n body => ih body n) statements n
  | zero =>
    rw [Nat.zero_add]
    rcases Nat.eq_or_lt_of_le hc.callDepth with heq | hlt
    · rw [heq, Nat.sub_self]
      refine hc.execStatements hR ⟨?_, ?_, ?_⟩ statements n
      · intro run hrun
        cases hrun
      · intro run hrun
        cases hrun
      · intro n command callee
        exact hc.refuse hR.walks heq command callee callee
    · obtain ⟨more, hmore⟩ := Nat.exists_eq_add_of_lt hlt
      have hlevels : b.options.maxCallDepth - a.options.maxCallDepth = more + 1 := by omega
      rw [hlevels]
      refine hc.execStatements hR ⟨?_, ?_, ?_⟩ statements n
      · intro run hrun
        cases hrun
      · intro run hrun body
        cases hrun
        exact (Steady.pervasive b).execAt more body
      · intro n command callee
        exact hc.cutCall hR hlt (hc.call_lasts more command callee) command callee

/-- Two programs that are the same take the same course. -/
theorem body (hc : SameCourse a b J Cut) (hR : Tracks R J) (program : Program) (n : Nat) :
    Follows (R n) Cut (Run.body a program) (Run.body b program) := by
  refine .bind (hc.validate (hR.recalls n) program) fun _ => ?_
  have hlevels : b.options.maxCallDepth =
      a.options.maxCallDepth + (b.options.maxCallDepth - a.options.maxCallDepth) := by
    have h := hc.callDepth
    omega
  rw [hlevels]
  exact hc.execAt hR a.options.maxCallDepth program n

end SameCourse

end

end Run

end BlockScript
