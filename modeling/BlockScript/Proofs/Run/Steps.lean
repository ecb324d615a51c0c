import BlockScript.Run.Execute

/-!
# Properties of all steps

A run is put together from a few small steps. A property that they have, and that putting steps
together keeps, is a property of every evaluation, command, loop, call and program. The small steps
are in two lists: what evaluation, commands and checks are made of, and what else it takes to run
statements.
-/
namespace BlockScript
set_option autoImplicit false

/-- A cause other than an unknown name. A failed command ends a run only for a lost connection or if
the options say so, and it fails for its own reasons, for a lost connection or for want of a
position. -/
def Halt.isRegular (options : RunOptions) : Halt → Bool
  | unknownCommand _ => false
  | unknownPredicate _ => false
  | commandFailed kind _ _ =>
    kind = .connectionLost ∨ options.stopOnFailure ∧ (kind = .command ∨ kind = .absoluteLookup)
  | _ => true

namespace Run

variable {σ : Type}

/-- A change that leaves scopes, open calls and begun iterations as they are. -/
def Administers (f : State σ → State σ) : Prop :=
  ∀ s, (f s).env = s.env ∧ (f s).depth = s.depth ∧ (f s).iterations = s.iterations

/-- What evaluation, commands and checks are made of has the property `P`. Names of predicates that
are `Judged` may be met. -/
structure Elementary (setup : Setup σ) (Judged : String → Prop)
    (P : ∀ α : Type, Run σ α → Prop) : Prop where
  pure : ∀ {α : Type} (a : α), P α (Pure.pure a)
  bind : ∀ {α β : Type} {m : Run σ α} {k : α → Run σ β}, P α m → (∀ a, P β (k a)) → P β (m >>= k)
  read : ∀ {α : Type} (part : State σ → α), P α (Run.read part)
  /-- Only answers that the world can give are followed up. -/
  askBind : ∀ {α β : Type} (act : Act σ α) {k : α → Run σ β},
    (∀ world, P β (k (act world).1)) → P β (Run.ask act >>= k)
  trace : ∀ loc kind, P Unit (Run.trace setup loc kind)
  change : ∀ f, Administers f → P Unit (Run.modify f)
  failWith : ∀ {α : Type} {halt : Halt} (loc : Location) (notes : List String),
    halt.isRegular setup.options = true → P α (Run.failWith halt loc notes)
  /-- The store has given a function whose body cannot be read. -/
  failBody : ∀ {α : Type} {function : StoredFunction} {error : SyntaxError} {name : String}
    (loc : Location) (world : σ),
    (setup.context.function setup.options.actor name world).1 = .ok (some function) →
    parse function.body = .error error → P α (Run.failBody function loc error)
  predicate : ∀ name, Judged name →
    name = lastOkName ∨ setup.context.registry.hasPredicate name = true ∨
      ∀ {α : Type} (loc : Location), P α (Run.fail (.unknownPredicate name) loc)

/-- The predicates among calls are judged. -/
def AllJudged (Judged : String → Prop) (calls : List Call) : Prop :=
  ∀ call ∈ calls, call.isPredicate = true → Judged call.name

theorem allJudged_append {Judged : String → Prop} {first second : List Call} :
    AllJudged Judged (first ++ second) ↔ AllJudged Judged first ∧ AllJudged Judged second := by
  unfold AllJudged
  simp only [List.mem_append, or_imp, forall_and]

theorem allJudged_cons {Judged : String → Prop} {call : Call} {rest : List Call} :
    AllJudged Judged (call :: rest) ↔
      (call.isPredicate = true → Judged call.name) ∧ AllJudged Judged rest :=
  List.forall_mem_cons

namespace Elementary

variable {setup : Setup σ} {Judged : String → Prop} {P : ∀ α : Type, Run σ α → Prop}

section

variable (hP : Elementary setup Judged P)
include hP

theorem ask {α : Type} (act : Act σ α) : P α (Run.ask act) :=
  hP.askBind act fun _ => hP.pure _

theorem fail {α : Type} {halt : Halt} (loc : Location)
    (h : halt.isRegular setup.options = true) : P α (Run.fail halt loc) :=
  hP.failWith loc [] h

/-! ## Positions and values -/

theorem ofProbe {α : Type} (loc : Location) (answer : Except ProbeError α) :
    P α (Run.ofProbe loc answer) := by
  cases answer with
  | ok a => exact hP.pure a
  | error e => exact hP.fail loc rfl

theorem pose (loc : Location) : P Pose (Run.pose setup loc) :=
  hP.bind (hP.ask _) fun answer => hP.ofProbe loc answer

theorem resolveNow (loc : Location) (value : Value) :
    P Position (Run.resolveNow setup loc value) := by
  refine hP.bind (hP.pose loc) fun pose => hP.bind (hP.ask _) fun answer => ?_
  cases answer with
  | ok position => exact hP.pure position
  | error e => exact hP.fail loc rfl

theorem originOf (loc : Location) (p : Preparation) :
    P Orientation (Run.originOf setup loc p) := by
  unfold Run.originOf
  cases p.origin with
  | some origin => exact hP.pure origin
  | none => exact hP.bind (hP.pose loc) fun _ => hP.pure _

theorem prepareFrom (loc : Location) (values : List (Option String × Value)) (p : Preparation) :
    P Prepared (Run.prepareFrom setup loc p values) := by
  induction values generalizing p with
  | nil => exact hP.pure _
  | cons first rest ih =>
    obtain ⟨key, value⟩ := first
    simp only [Run.prepareFrom]
    cases plainArgument? value with
    | some argument => exact ih _
    | none =>
      refine hP.bind (hP.originOf loc p) fun origin => hP.bind (hP.ask _) fun answer => ?_
      cases answer with
      | ok position => exact ih _
      | error e =>
        cases e with
        | overflow selector => exact hP.fail loc rfl
        | missingWaypoint name => exact hP.pure _
        | store e => exact hP.pure _
        | notSpatial v => exact hP.pure _

theorem searchOrigin (loc : Location) (query : Query) :
    P Position (Run.searchOrigin setup loc query) := by
  unfold Run.searchOrigin
  cases query.pin with
  | some position => exact hP.pure position
  | none => exact hP.bind (hP.pose loc) fun _ => hP.pure _

theorem truthy (loc : Location) (value : Value) : P Bool (Run.truthy setup loc value) := by
  cases value with
  | bool v => exact hP.pure v
  | int n => exact hP.pure _
  | query q =>
    exact hP.bind (hP.searchOrigin loc q) fun origin => hP.bind (hP.ask _) fun found =>
      hP.bind (hP.ofProbe loc found) fun _ => hP.pure _
  | _ => exact hP.fail loc rfl

theorem asInt (what : String) (loc : Location) (value : Value) :
    P Int64 (Run.asInt what loc value) := by
  cases value with
  | int n => exact hP.pure n
  | _ => exact hP.fail loc rfl

theorem coordinate (loc : Location) (value : Value) : P Int32 (Run.coordinate loc value) := by
  refine hP.bind (hP.asInt _ loc value) fun n => ?_
  cases fit32 n.toInt with
  | some c => exact hP.pure c
  | none => exact hP.fail loc rfl

theorem addCriterion (query : Query) (key : String) (loc : Location) (value : Value) :
    P Query (Run.addCriterion setup query key loc value) := by
  unfold Run.addCriterion
  split
  · exact hP.bind (hP.resolveNow loc value) fun _ => hP.pure _
  · cases value with
    | text s => exact hP.pure _
    | int n => exact hP.pure _
    | bool v => exact hP.pure _
    | _ => exact hP.fail loc rfl

theorem negate (loc : Location) (value : Value) : P Value (Run.negate loc value) := by
  cases value with
  | int n =>
    simp only [Run.negate]
    cases fit64 (-n.toInt) with
    | some m => exact hP.pure _
    | none => exact hP.fail loc rfl
  | _ => exact hP.fail loc rfl

theorem applyStrict (op : BinaryOp) (loc : Location) (lhs rhs : Value) :
    P Value (Run.applyStrict op loc lhs rhs) := by
  unfold Run.applyStrict
  cases Value.apply op lhs rhs with
  | ok value => exact hP.pure value
  | error e => exact hP.fail loc rfl

/-! ## Expressions -/

theorem lastOk (loc : Location) (noArguments : Bool) :
    P Bool (Run.lastOk setup loc noArguments) := by
  cases noArguments with
  | false => exact hP.fail loc rfl
  | true => exact hP.bind (hP.read _) fun _ => hP.bind (hP.trace loc _) fun _ => hP.pure _

theorem evaluatePredicate (name : String) (loc : Location) (handler : PredicateHandler σ)
    (values : List (Option String × Value)) :
    P Bool (Run.evaluatePredicate setup name loc handler values) := by
  refine hP.bind (hP.prepareFrom loc values _) fun prepared => ?_
  cases prepared with
  | lookupFailed message notes => exact hP.failWith loc notes rfl
  | ready args notes =>
    refine hP.bind (hP.ask _) fun answer => ?_
    cases answer with
    | ok value => exact hP.bind (hP.trace loc _) fun _ => hP.pure value
    | error fault => exact hP.fail loc rfl

end

mutual

theorem eval (hP : Elementary setup Judged P) :
    ∀ e : Expr, AllJudged Judged (Calls.ofExpr e) → P Value (Run.eval setup e)
  | .int .., _ => hP.pure _
  | .text .., _ => hP.pure _
  | .bool .., _ => hP.pure _
  | .selector .., _ => hP.pure _
  | .waypoint .., _ => hP.pure _
  | .ident name loc, _ => by
    refine hP.bind (hP.read _) fun found => ?_
    cases found with
    | some value => exact hP.pure value
    | none => exact hP.fail loc rfl
  | .world x y z _, h => by
    rw [Calls.ofExpr, allJudged_append, allJudged_append] at h
    obtain ⟨⟨hx, hy⟩, hz⟩ := h
    refine hP.bind (eval hP x hx) fun vx => hP.bind (hP.coordinate _ vx) fun _ => ?_
    refine hP.bind (eval hP y hy) fun vy => hP.bind (hP.coordinate _ vy) fun _ => ?_
    exact hP.bind (eval hP z hz) fun vz => hP.bind (hP.coordinate _ vz) fun _ => hP.pure _
  | .query criteria _, h => hP.bind (evalCriteria hP criteria _ h) fun _ => hP.pure _
  | .predicate name args loc, h => by
    rw [Calls.ofExpr, allJudged_cons] at h
    obtain ⟨hname, hargs⟩ := h
    unfold Run.eval
    split
    · exact hP.bind (hP.lastOk loc _) fun _ => hP.pure _
    · next hother =>
      cases hfound : setup.context.registry.predicate? name with
      | none =>
        have hmissing : setup.context.registry.hasPredicate name = false :=
          congrArg Option.isSome hfound
        rcases hP.predicate name (hname rfl) with hlast | hregistered | hunknown
        · exact absurd hlast hother
        · rw [hmissing] at hregistered
          cases hregistered
        · exact hunknown loc
      | some handler =>
        exact hP.bind (evalArgs hP args hargs) fun values =>
          hP.bind (hP.evaluatePredicate name loc handler values) fun _ => hP.pure _
  | .unary op operand loc, h => by
    refine hP.bind (eval hP operand h) fun value => ?_
    cases op with
    | not => exact hP.bind (hP.truthy _ value) fun _ => hP.pure _
    | neg => exact hP.negate loc value
  | .binary op left right, h => by
    rw [Calls.ofExpr, allJudged_append] at h
    obtain ⟨hleft, hright⟩ := h
    refine hP.bind (eval hP left hleft) fun lhs => ?_
    have hboth : P Value (Run.eval setup right >>= fun rhs =>
        Run.truthy setup right.loc rhs >>= fun decided => Pure.pure (Value.bool decided)) :=
      hP.bind (eval hP right hright) fun rhs => hP.bind (hP.truthy _ rhs) fun _ => hP.pure _
    cases op with
    | and =>
      refine hP.bind (hP.truthy _ lhs) fun decided => ?_
      cases decided with
      | true => exact hboth
      | false => exact hP.pure _
    | or =>
      refine hP.bind (hP.truthy _ lhs) fun decided => ?_
      cases decided with
      | true => exact hP.pure _
      | false => exact hboth
    | _ => exact hP.bind (eval hP right hright) fun rhs => hP.applyStrict _ _ lhs rhs

theorem evalCriteria (hP : Elementary setup Judged P) :
    ∀ (criteria : List (String × Expr)) (query : Query),
      AllJudged Judged (Calls.ofCriteria criteria) →
        P Query (Run.evalCriteria setup query criteria)
  | [], _, _ => hP.pure _
  | (key, e) :: rest, query, h => by
    rw [Calls.ofCriteria, allJudged_append] at h
    exact hP.bind (eval hP e h.1) fun value =>
      hP.bind (hP.addCriterion query key e.loc value) fun query => evalCriteria hP rest query h.2

theorem evalArgs (hP : Elementary setup Judged P) :
    ∀ args : List (Arg Expr), AllJudged Judged (Calls.ofArgs args) →
      P (List (Option String × Value)) (Run.evalArgs setup args)
  | [], _ => hP.pure _
  | ⟨_, e⟩ :: rest, h => by
    rw [Calls.ofArgs, allJudged_append] at h
    exact hP.bind (eval hP e h.1) fun _ => hP.bind (evalArgs hP rest h.2) fun _ => hP.pure _

end

section

variable (hP : Elementary setup Judged P)
include hP

theorem evalInt (what : String) {e : Expr} (h : AllJudged Judged (Calls.ofExpr e)) :
    P Int64 (Run.evalInt setup what e) :=
  hP.bind (hP.eval e h) fun value => hP.asInt what e.loc value

theorem evalCondition {e : Expr} (h : AllJudged Judged (Calls.ofExpr e)) :
    P Bool (Run.evalCondition setup e) :=
  hP.bind (hP.eval e h) fun value => hP.truthy e.loc value

theorem ofBinding {α : Type} (callee : String) (loc : Location) (answer : Except BindError α) :
    P α (Run.ofBinding callee loc answer) := by
  cases answer with
  | ok a => exact hP.pure a
  | error e => exact hP.fail loc rfl

theorem placeArgs (callee : String) (loc : Location) (given : Nat) {args : List (Arg Expr)}
    (h : AllJudged Judged (Calls.ofArgs args)) (binding : Binding) :
    P Binding (Run.placeArgs setup callee loc given binding args) := by
  induction args generalizing binding with
  | nil => exact hP.pure binding
  | cons arg rest ih =>
    rw [Calls.ofArgs, allJudged_append] at h
    exact hP.bind (hP.eval arg.value h.1) fun value =>
      hP.bind (hP.ofBinding callee loc _) fun binding => ih h.2 binding

theorem bindArgs (callee : String) (loc : Location) (params : List CallParam)
    {args : List (Arg Expr)} (h : AllJudged Judged (Calls.ofArgs args)) :
    P (List (String × Value)) (Run.bindArgs setup callee loc params args) :=
  hP.bind (hP.placeArgs callee loc _ h _) fun _ => hP.ofBinding callee loc _

/-! ## Commands and functions -/

theorem checkCancelled (loc : Location) : P Unit (Run.checkCancelled setup loc) := by
  refine hP.bind (hP.ask _) fun cancelled => ?_
  cases cancelled with
  | true => exact hP.fail loc rfl
  | false => exact hP.pure ()

theorem checkLocated (statement : Statement) : P Unit (Run.checkLocated setup statement) := by
  unfold Run.checkLocated
  cases statement.loc? with
  | none => exact hP.pure ()
  | some loc => exact hP.checkCancelled loc

theorem autoScan (loc : Location) (handler : CommandHandler σ) :
    P Unit (Run.autoScan setup loc handler) := by
  unfold Run.autoScan
  split
  · refine hP.bind (hP.ask _) fun needed => ?_
    cases needed with
    | false => exact hP.pure ()
    | true =>
      refine hP.bind (hP.ask _) fun answer => ?_
      match answer with
      | .ok () => exact hP.pure ()
      | .error (.unavailable _) => exact hP.pure ()
      | .error (.connectionLost _) => exact hP.fail loc rfl
  · exact hP.pure ()

theorem perform (handler : CommandHandler σ) (args : Arguments) :
    P (Except Fault (List String)) (Run.perform handler args) := by
  refine hP.bind (hP.ask _) fun answer => ?_
  cases answer with
  | ok _ => exact hP.ask _
  | error fault => exact hP.pure _

/-- A failure has one of the kinds that end a run if the options say so. -/
theorem record (loc : Location) {result : StepResult}
    (h : ∀ step, result = .failure step → step.kind = .connectionLost ∨ step.kind = .command ∨
      step.kind = .absoluteLookup) :
    P Unit (Run.record setup loc result) := by
  refine hP.bind (hP.change _ fun _ => ⟨rfl, rfl, rfl⟩) fun _ => ?_
  cases result with
  | success step => exact hP.pure ()
  | failure step =>
    dsimp only
    split
    · next hends =>
      refine hP.failWith loc _ (decide_eq_true ?_)
      rcases hends with hlost | hstop
      · exact .inl hlost
      · exact (h step rfl).imp_right fun hkind => ⟨hstop, hkind⟩
    · exact hP.pure ()

theorem conclude (call : CommandCall) (handler : CommandHandler σ) (opIndex : Nat)
    (prepared : Prepared) : P Unit (Run.conclude setup call handler opIndex prepared) := by
  refine hP.bind (hP.change _ fun _ => ⟨rfl, rfl, rfl⟩) fun _ => hP.bind (hP.read _) fun stamp => ?_
  cases prepared with
  | lookupFailed message notes =>
    refine hP.record _ ?_
    rintro step ⟨⟩
    exact .inr (.inr rfl)
  | ready args notes =>
    refine hP.bind (hP.perform handler args) fun outcome => hP.record _ ?_
    cases outcome with
    | ok notes => exact nofun
    | error fault =>
      rintro step ⟨⟩
      cases fault with
      | connectionLost reason => exact .inl rfl
      | _ => exact .inr (.inl rfl)

theorem dispatch {call : CommandCall} (h : AllJudged Judged (Calls.ofArgs call.args))
    (handler : CommandHandler σ) : P Unit (Run.dispatch setup call handler) := by
  refine hP.bind (hP.checkCancelled _) fun _ => hP.bind (hP.read _) fun opIndex => ?_
  split
  · exact hP.fail _ rfl
  · refine hP.bind ?_ fun prepared => hP.conclude call handler opIndex prepared
    exact hP.bind (hP.trace _ _) fun _ => hP.bind (hP.evalArgs _ h) fun values =>
      hP.bind (hP.autoScan _ handler) fun _ => hP.prepareFrom _ values _

theorem loadParams (function : String) (loc : Location) (params : List FunctionParam) :
    P (List CallParam) (Run.loadParams function loc params) := by
  induction params with
  | nil => exact hP.pure _
  | cons param rest ih =>
    refine hP.bind ?_ fun _ => hP.bind ih fun _ => hP.pure _
    unfold Run.loadParam
    cases param.default with
    | none => exact hP.pure _
    | some json =>
      dsimp only
      cases Value.ofJson? param.type json with
      | none => exact hP.fail loc rfl
      | some value => exact hP.pure _

theorem loadFound {name : String} (loc : Location) {found : Option StoredFunction} (world : σ)
    (hfound : (setup.context.function setup.options.actor name world).1 = .ok found) :
    P (Option Callee) (Run.loadFound loc found) := by
  cases found with
  | none => exact hP.pure none
  | some function =>
    refine hP.bind ?_ fun _ => hP.pure _
    unfold Run.load
    cases hparse : parse function.body with
    | error e => exact hP.failBody loc world hfound hparse
    | ok body => exact hP.bind (hP.loadParams _ loc _) fun _ => hP.pure _

theorem fetch (name : String) (loc : Location) : P (Option Callee) (Run.fetch setup name loc) := by
  refine hP.bind (hP.read _) fun known => ?_
  cases known with
  | some callee => exact hP.pure callee
  | none =>
    refine hP.askBind _ fun world => ?_
    cases hfound : (setup.context.function setup.options.actor name world).1 with
    | error e => exact hP.fail loc rfl
    | ok found =>
      exact hP.bind (hP.loadFound loc world hfound) fun callee =>
        hP.bind (hP.change _ fun _ => ⟨rfl, rfl, rfl⟩) fun _ => hP.pure callee

theorem isKnown (declared : List String) (call : Call) :
    P Bool (Run.isKnown setup declared call) := by
  unfold Run.isKnown
  split
  · exact hP.pure _
  · refine hP.bind (hP.read _) fun found => ?_
    split
    · exact hP.pure _
    · exact hP.bind (hP.fetch _ _) fun _ => hP.pure _

/-! ## Checks of names -/

theorem validate (hunknown : ∀ call loc, P Unit (Run.fail (Run.unknown call) loc))
    (statements : List Statement) : P Unit (Run.validate setup statements) := by
  unfold Run.validate
  induction Program.calls statements with
  | nil => exact hP.pure ()
  | cons call rest ih =>
    refine hP.bind (hP.isKnown _ call) fun known => ?_
    cases known with
    | true => exact ih
    | false => exact hunknown call _

theorem validateOnce (hunknown : ∀ call loc, P Unit (Run.fail (Run.unknown call) loc))
    (callee : Callee) : P Unit (Run.validateOnce setup callee) := by
  unfold Run.validateOnce
  cases callee.stored with
  | none => exact hP.pure ()
  | some name =>
    refine hP.bind (hP.read _) fun done => ?_
    cases done with
    | true => exact hP.pure ()
    | false =>
      exact hP.bind (hP.validate hunknown callee.body) fun _ => hP.change _ fun _ => ⟨rfl, rfl, rfl⟩

theorem execCommand {enter : Enter σ} {command : CommandCall}
    (h : AllJudged Judged (Calls.ofArgs command.args))
    (hunknown : ∀ call loc, P Unit (Run.fail (Run.unknown call) loc))
    (hcall : ∀ callee, P Unit (Run.call setup enter command callee)) :
    P Unit (Run.execCommand setup enter command) := by
  refine hP.bind (hP.read _) fun found => ?_
  cases found with
  | some m => exact hcall _
  | none =>
    dsimp only
    split
    · exact hP.dispatch h _
    · refine hP.bind (hP.fetch _ _) fun callee => ?_
      cases callee with
      | some callee => exact hcall callee
      | none => exact hunknown ⟨command.name, command.loc, false⟩ _

/-! ## Loops and assignments -/

theorem beginIteration
    (hiterate : P Unit (Run.modify fun s => { s with iterations := s.iterations + 1 }))
    (loc : Location) (iteration : Nat) (binding : Option (String × Int64)) :
    P Unit (Run.beginIteration setup loc iteration binding) := by
  refine hP.bind (hP.checkCancelled loc) fun _ => hP.bind hiterate fun _ =>
    hP.bind (hP.read _) fun _ => ?_
  split
  · exact hP.fail loc rfl
  · exact hP.trace loc _

theorem loop {ι : Type} {rounds : Rounds σ ι} (hmore : ∀ i, P Bool (rounds.more i))
    (hstart : ∀ i, P Unit (rounds.start i)) (hbody : ∀ i, P Unit (rounds.body i)) (left : Nat)
    (i : ι) : P Unit (Run.loop rounds left i) := by
  induction left generalizing i with
  | zero =>
    refine hP.bind (hmore i) fun more => ?_
    cases more with
    | true => exact hstart i
    | false => exact hP.pure ()
  | succ left ih =>
    refine hP.bind (hmore i) fun more => ?_
    cases more with
    | false => exact hP.pure ()
    | true =>
      refine hP.bind (hstart i) fun _ => hP.bind (hbody i) fun _ => ?_
      cases rounds.next i with
      | none => exact hP.pure ()
      | some j => exact ih j

theorem runRounds {ι : Type} {rounds : Rounds σ ι} (hmore : ∀ i, P Bool (rounds.more i))
    (hstart : ∀ i, P Unit (rounds.start i)) (hbody : ∀ i, P Unit (rounds.body i)) (first : ι) :
    P Unit (Run.runRounds setup rounds first) :=
  hP.bind (hP.read _) fun _ => hP.loop hmore hstart hbody _ first

theorem rangeStep {step : Option Expr} (h : ∀ e ∈ step, AllJudged Judged (Calls.ofExpr e)) :
    P Int64 (Run.rangeStep setup step) := by
  cases step with
  | none => exact hP.pure 1
  | some e => exact hP.evalInt _ (h e rfl)

theorem assignVariable {name : String} {value : Value} (h : P Bool (Run.assign name value))
    (loc : Location) : P Unit (Run.assignVariable setup name loc value) := by
  refine hP.bind h fun found => ?_
  cases found with
  | true => exact hP.trace loc _
  | false => exact hP.fail loc rfl

end

end Elementary

/-! ## Related states -/

/-- A step that takes every state to a related one, however it ends. -/
def Moves (Rel : State σ → State σ → Prop) (α : Type) (m : Run σ α) : Prop := ∀ s, Rel s (m s).2

namespace Moves

variable {α β : Type} {Rel : State σ → State σ → Prop}

theorem bind (htrans : ∀ s t u, Rel s t → Rel t u → Rel s u) {m : Run σ α} {k : α → Run σ β}
    (hm : Moves Rel α m) (hk : ∀ a, Moves Rel β (k a)) : Moves Rel β (m >>= k) := by
  intro s
  have h := hm s
  dsimp only [Bind.bind]
  generalize m s = first at h
  obtain ⟨answer, s'⟩ := first
  cases answer with
  | ok a => exact htrans _ _ _ h (hk a s')
  | error x => exact h

/-- Evaluation, commands and checks keep a relation that looks only at scopes, calls and
iterations. -/
theorem elementary (setup : Setup σ) {Judged : String → Prop}
    (hsame : ∀ s t, t.env = s.env → t.depth = s.depth → t.iterations = s.iterations → Rel s t)
    (htrans : ∀ s t u, Rel s t → Rel t u → Rel s u) :
    Elementary setup Judged (Moves Rel) where
  pure := fun _ _ => hsame _ _ rfl rfl rfl
  bind := bind htrans
  read := fun _ _ => hsame _ _ rfl rfl rfl
  askBind := fun act k hk s =>
    htrans s { s with world := (act s.world).2 } _ (hsame _ _ rfl rfl rfl) (hk s.world _)
  trace := fun loc kind s => by
    unfold Run.trace
    split <;> exact hsame _ _ rfl rfl rfl
  change := fun f hf s => hsame _ _ (hf s).1 (hf s).2.1 (hf s).2.2
  failWith := fun _ _ _ _ => hsame _ _ rfl rfl rfl
  failBody := fun _ _ _ _ _ => hsame _ _ rfl rfl rfl
  predicate := fun _ _ => .inr (.inr fun _ _ => hsame _ _ rfl rfl rfl)

end Moves

/-! ## Statements -/

/-- How calls are entered where they may nest so many levels deep. -/
def enterAt (setup : Setup σ) : Nat → Enter σ
  | 0 => none
  | level + 1 => some (execAt setup level)

theorem execAt_eq (setup : Setup σ) (level : Nat) (statements : List Statement) :
    execAt setup level statements = execStatements setup (enterAt setup level) statements := by
  cases level <;> rfl

/-- What the running of statements is made of has the property `P`. -/
structure Pervasive (setup : Setup σ) (P : ∀ α : Type, Run σ α → Prop) : Prop extends
    Elementary setup (fun _ => True) P where
  unknown : ∀ call loc, P Unit (Run.fail (Run.unknown call) loc)
  iterate : P Unit (Run.modify fun s => { s with iterations := s.iterations + 1 })
  declare : ∀ name value, P Unit (Run.modify fun s => { s with env := s.env.declare name value })
  hoist : ∀ statements, P Unit (Run.hoist statements)
  assign : ∀ name value, P Bool (Run.assign name value)
  inScope : ∀ {m : Run σ Unit}, P Unit m → P Unit (Run.inScope m)
  inFrame : ∀ (bound : List (String × Value)) {m : Run σ Unit}, P Unit m →
    P Unit (Run.inFrame bound m)

namespace Pervasive

variable {setup : Setup σ} {P : ∀ α : Type, Run σ α → Prop} (hP : Pervasive setup P)

/-- Every name may be met. -/
theorem allJudged {calls : List Call} : AllJudged (fun _ => True) calls := fun _ _ _ => trivial

include hP

variable {enter : Enter σ}

theorem call (henter : ∀ run ∈ enter, ∀ body, P Unit (run body)) (command : CommandCall)
    (callee : Callee) : P Unit (Run.call setup enter command callee) := by
  cases enter with
  | none => exact hP.fail _ rfl
  | some run =>
    refine hP.bind (hP.bindArgs _ _ _ allJudged) fun bound =>
      hP.bind (hP.validateOnce hP.unknown callee) fun _ =>
        hP.bind (hP.read _) fun _ => hP.bind (hP.trace _ _) fun _ => ?_
    exact hP.inFrame bound (henter run rfl callee.body)

end Pervasive

namespace Pervasive

variable {setup : Setup σ} {P : ∀ α : Type, Run σ α → Prop} {enter : Enter σ}

mutual

theorem execStatement (hP : Pervasive setup P)
    (henter : ∀ run ∈ enter, ∀ body, P Unit (run body)) :
    ∀ statement : Statement, P Unit (Run.execStatement setup enter statement)
  | .define .. => hP.pure ()
  | .empty => hP.pure ()
  | .cond test yes no loc => by
    refine hP.bind (hP.evalCondition allJudged) fun taken => hP.bind (hP.trace loc _) fun _ => ?_
    cases taken with
    | true => exact execBody hP henter yes
    | false => exact execAlternative hP henter no
  | .repeatCount count body loc =>
    hP.bind (hP.evalInt _ allJudged) fun n =>
      hP.runRounds (fun _ => hP.pure _) (fun i => hP.beginIteration hP.iterate loc i none)
        (fun _ => execBody hP henter body) 0
  | .repeatRange name start stop step body loc => by
    refine hP.bind (hP.evalInt _ allJudged) fun first =>
      hP.bind (hP.evalInt _ allJudged) fun last =>
        hP.bind (hP.rangeStep fun _ _ => allJudged) fun stride => ?_
    split
    · exact hP.fail loc rfl
    · refine hP.runRounds (fun _ => hP.pure _)
        (fun c => hP.beginIteration hP.iterate loc c.iteration _) (fun c => ?_) _
      exact hP.inScope (hP.bind (hP.declare name _) fun _ => execBody hP henter body)
  | .loop test body loc =>
    hP.runRounds (fun _ => hP.evalCondition allJudged)
      (fun i => hP.beginIteration hP.iterate loc i none) (fun _ => execBody hP henter body) 0
  | .assert test message loc => by
    refine hP.bind (hP.evalCondition allJudged) fun passed => hP.bind (hP.trace loc _) fun _ => ?_
    cases passed with
    | true => exact hP.pure ()
    | false => exact hP.fail loc rfl
  | .bind name value loc =>
    hP.bind (hP.eval value allJudged) fun v => hP.bind (hP.trace loc _) fun _ => hP.declare name v
  | .assign name value loc =>
    hP.bind (hP.eval value allJudged) fun v => hP.assignVariable (hP.assign name v) loc
  | .command name args loc =>
    hP.execCommand allJudged hP.unknown fun callee => hP.call henter ⟨name, args, loc⟩ callee
  | .block body => execBody hP henter body

theorem execBody (hP : Pervasive setup P)
    (henter : ∀ run ∈ enter, ∀ body, P Unit (run body)) :
    ∀ body : Body Statement, P Unit (Run.execBody setup enter body)
  | ⟨statements, _⟩ => hP.inScope (hP.bind (hP.hoist statements) fun _ =>
    execEach hP henter statements)

theorem execAlternative (hP : Pervasive setup P)
    (henter : ∀ run ∈ enter, ∀ body, P Unit (run body)) :
    ∀ body : Option (Body Statement), P Unit (Run.execAlternative setup enter body)
  | none => hP.pure ()
  | some body => execBody hP henter body

theorem execEach (hP : Pervasive setup P)
    (henter : ∀ run ∈ enter, ∀ body, P Unit (run body)) :
    ∀ statements : List Statement, P Unit (Run.execEach setup enter statements)
  | [] => hP.pure ()
  | statement :: rest => hP.bind (hP.checkLocated statement) fun _ =>
    hP.bind (execStatement hP henter statement) fun _ => execEach hP henter rest

end

theorem execStatements (hP : Pervasive setup P)
    (henter : ∀ run ∈ enter, ∀ body, P Unit (run body)) (statements : List Statement) :
    P Unit (Run.execStatements setup enter statements) :=
  hP.bind (hP.hoist _) fun _ => hP.execEach henter statements

theorem execAt (hP : Pervasive setup P) (level : Nat) (statements : List Statement) :
    P Unit (Run.execAt setup level statements) := by
  induction level generalizing statements with
  | zero =>
    refine hP.execStatements ?_ statements
    intro run hrun
    cases hrun
  | succ level ih =>
    refine hP.execStatements ?_ statements
    intro run hrun
    cases hrun
    exact ih

theorem enterAt (hP : Pervasive setup P) (level : Nat) :
    ∀ run ∈ Run.enterAt setup level, ∀ body, P Unit (run body) := by
  intro run hrun
  cases level with
  | zero => cases hrun
  | succ level =>
    cases hrun
    exact hP.execAt level

theorem body (hP : Pervasive setup P) (program : Program) : P Unit (Run.body setup program) :=
  hP.bind (hP.validate hP.unknown program) fun _ => hP.execAt _ program

end Pervasive

end Run

end BlockScript
