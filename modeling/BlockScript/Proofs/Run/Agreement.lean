import BlockScript.Proofs.Script.Variables
import BlockScript.Run.Execute

/-!
# Two runs side by side

A relation between the states of two runs is carried through their steps. Either both runs give the
same answer in related states, or the first has been cut off and the second goes on alone; what the
second does then must not undo the cut. This module holds the relation, its rules for the building
blocks of a run, and the evaluation of expressions. Statements follow in a module of their own.
-/
namespace BlockScript
set_option autoImplicit false

/-- What a run has done to its world and to its books, apart from where its control stands. -/
structure Outside (σ : Type) where
  world : σ
  journal : Journal
  results : List StepResult
  ops : Nat
  lastOk : Option Bool
  lastOp : Option String

namespace State

variable {σ : Type}

def outside (state : State σ) : Outside σ :=
  ⟨state.world, state.journal, state.results, state.ops, state.lastOk, state.lastOp⟩

def withOutside (state : State σ) (o : Outside σ) : State σ :=
  { state with
    world := o.world, journal := o.journal, results := o.results, ops := o.ops
    lastOk := o.lastOk, lastOp := o.lastOp }

@[simp]
theorem withOutside_outside (state : State σ) (o : Outside σ) :
    (state.withOutside o).outside = o := rfl

end State

/-- The books after a trace has been published, if the options ask for traces. -/
def Outside.traced {σ : Type} (setup : Setup σ) (loc : Location) (kind : TraceKind)
    (o : Outside σ) : Outside σ :=
  if setup.options.trace then
    { o with journal := o.journal.trace ⟨o.journal.createdAt, loc, kind⟩ }
  else o

namespace Run

variable {σ τ α β : Type}

theorem bind_ok {m : Run σ α} {k : α → Run σ β} {s s' : State σ} {x : α} (h : m s = (.ok x, s')) :
    (m >>= k) s = k x s' := by
  dsimp only [bind]
  rw [h]

theorem bind_error {m : Run σ α} {k : α → Run σ β} {s s' : State σ} {x : Termination}
    (h : m s = (.error x, s')) : (m >>= k) s = (.error x, s') := by
  dsimp only [bind]
  rw [h]

/-- Two continuations need only agree on the answers that the first step gives. -/
theorem bind_congr_at {m : Run σ α} {k k' : α → Run σ β} {s : State σ}
    (h : ∀ x s', m s = (.ok x, s') → k x s' = k' x s') : (m >>= k) s = (m >>= k') s := by
  cases hm : m s with
  | mk answer s' =>
    cases answer with
    | error x => rw [bind_error hm, bind_error hm]
    | ok x => rw [bind_ok hm, bind_ok hm, h x s' hm]

instance : LawfulMonad (Run σ) :=
  LawfulMonad.mk' (Run σ)
    (fun m => by
      funext s
      show (m >>= fun a => pure a) s = m s
      cases hm : m s with
      | mk answer s' =>
        cases answer with
        | error x => exact bind_error hm
        | ok a => exact bind_ok hm)
    (fun _ _ => rfl)
    (fun m k l => by
      funext s
      cases hm : m s with
      | mk answer s' =>
        cases answer with
        | error x => rw [bind_error hm, bind_error (bind_error hm)]
        | ok a =>
          rw [bind_ok hm]
          dsimp only [bind]
          rw [hm])

theorem ask_eq (act : Act σ α) (s : State σ) :
    ask act s =
      (.ok (act s.world).1, s.withOutside { s.outside with world := (act s.world).2 }) := rfl

theorem trace_eq (setup : Setup σ) (loc : Location) (kind : TraceKind) (s : State σ) :
    trace setup loc kind s = (.ok (), s.withOutside (s.outside.traced setup loc kind)) := by
  unfold trace Outside.traced
  split <;> rfl

theorem lastOk_eq (setup : Setup σ) (loc : Location) (s : State σ) :
    lastOk setup loc true s =
      (.ok (s.lastOk.getD true),
        s.withOutside (s.outside.traced setup loc
          (.predicateEvaluated lastOkName (s.lastOk.getD true)))) := by
  exact bind_ok (trace_eq setup loc _ s)

/-! ## Agreement of steps -/

section Agreement

variable (R : State σ → State τ → Prop) (Cut : Termination → Outside σ → Outside τ → Prop)

/-- Both runs answer alike, or the first has been cut off. -/
inductive Agree : Except Termination α × State σ → Except Termination α × State τ → Prop where
  | both {answer : Except Termination α} {s : State σ} {t : State τ} (h : R s t) :
    Agree (answer, s) (answer, t)
  | cut {x : Termination} {s : State σ} {second : Except Termination α × State τ}
    (h : Cut x s.outside second.2.outside) : Agree (.error x, s) second

/-- A step of the second run that leaves every cut in place. -/
def Lasts (second : Run τ α) : Prop :=
  ∀ x o t, Cut x o t.outside → Cut x o (second t).2.outside

/-- The second step follows the first one, and after a cut it leaves the cut in place. -/
structure Follows (first : Run σ α) (second : Run τ α) : Prop where
  agree : ∀ s t, R s t → Agree R Cut (first s) (second t)
  survives : Lasts Cut second

end Agreement

theorem Agree.of_eq {R : State σ → State τ → Prop}
    {Cut : Termination → Outside σ → Outside τ → Prop}
    {answer answer' : Except Termination α} {s : State σ} {t : State τ} (h : answer = answer')
    (hst : R s t) : Agree R Cut (answer, s) (answer', t) :=
  h ▸ .both hst

/-- A step whose answers are followed up; the first part may know more than the whole. -/
theorem Agree.bind {R R' : State σ → State τ → Prop}
    {Cut : Termination → Outside σ → Outside τ → Prop} {m : Run σ α} {m' : Run τ α}
    {k : α → Run σ β} {k' : α → Run τ β} {s : State σ} {t : State τ}
    (hle : ∀ s t, R s t → R' s t) (hm : Agree R Cut (m s) (m' t))
    (hk : ∀ a s t, R s t → Agree R' Cut (k a s) (k' a t)) (hlasts : ∀ a, Lasts Cut (k' a)) :
    Agree R' Cut ((m >>= k) s) ((m' >>= k') t) := by
  dsimp only [Bind.bind]
  generalize m s = first, m' t = second at hm
  cases hm with
  | @both answer s' t' h =>
    cases answer with
    | ok a => exact hk a s' t' h
    | error x => exact .both (hle s' t' h)
  | @cut x s' second h =>
    refine .cut ?_
    obtain ⟨answer, t'⟩ := second
    cases answer with
    | ok a => exact hlasts a x _ t' h
    | error y => exact h

theorem Lasts.bind {Cut : Termination → Outside σ → Outside τ → Prop} {m : Run τ α}
    {k : α → Run τ β} (hm : Lasts Cut m) (hk : ∀ a, Lasts Cut (k a)) : Lasts Cut (m >>= k) := by
  intro x o t hcut
  have h := hm x o t hcut
  dsimp only [Bind.bind]
  generalize m t = second at h
  obtain ⟨answer, t'⟩ := second
  cases answer with
  | ok a => exact hk a x o t' h
  | error y => exact h

namespace Follows

variable {R : State σ → State τ → Prop} {Cut : Termination → Outside σ → Outside τ → Prop}

theorem pure (a : α) : Follows R Cut (Pure.pure a : Run σ α) (Pure.pure a : Run τ α) :=
  ⟨fun _ _ h => .both h, fun _ _ _ h => h⟩

theorem bind {m : Run σ α} {m' : Run τ α} {k : α → Run σ β} {k' : α → Run τ β}
    (hm : Follows R Cut m m') (hk : ∀ a, Follows R Cut (k a) (k' a)) :
    Follows R Cut (m >>= k) (m' >>= k') := by
  refine ⟨fun s t hst => ?_, hm.survives.bind fun a => (hk a).survives⟩
  exact .bind (fun _ _ h => h) (hm.agree s t hst) (fun a => (hk a).agree) fun a => (hk a).survives

/-- A part of the state that both runs read alike. -/
theorem read {f : State σ → α} {g : State τ → α} (h : ∀ s t, R s t → f s = g t) :
    Follows R Cut (Run.read f) (Run.read g) := by
  constructor
  · intro s t hst
    change Agree R Cut (.ok (f s), s) (.ok (g t), t)
    rw [h s t hst]
    exact .both hst
  · intro _ _ _ hcut
    exact hcut

/-- A change of control alone. -/
theorem modify {f : State σ → State σ} {g : State τ → State τ}
    (h : ∀ s t, R s t → R (f s) (g t)) (hg : ∀ t, (g t).outside = t.outside) :
    Follows R Cut (Run.modify f) (Run.modify g) := by
  constructor
  · intro s t hst
    exact .both (h s t hst)
  · intro x o t hcut
    change Cut x o (g t).outside
    rwa [hg]

end Follows

/-! ## Related states -/

/-- A relation between states that shows them `J` outside, and that outlives every change of the
outside that `J` allows. -/
structure Shows (R : State σ → State τ → Prop) (J : Outside σ → Outside τ → Prop) : Prop where
  outside : ∀ {s t}, R s t → J s.outside t.outside
  update : ∀ {s t o p}, R s t → J o p → R (s.withOutside o) (t.withOutside p)

/-- Related states have the same value of a variable. -/
def ShowsVar (R : State σ → State τ → Prop) (name : String) : Prop :=
  ∀ s t, R s t → s.env.get? name = t.env.get? name

/-- A relation that shows the same variables inside as well. -/
structure Sees (R : State σ → State τ → Prop) (J : Outside σ → Outside τ → Prop) : Prop extends
    Shows R J where
  vars : ∀ {s t}, R s t → ∀ name, s.env.get? name = t.env.get? name

instance {R : State σ → State τ → Prop} {J : Outside σ → Outside τ → Prop} :
    Coe (Sees R J) (Shows R J) := ⟨Sees.toShows⟩

theorem Sees.showsVars {R : State σ → State τ → Prop} {J : Outside σ → Outside τ → Prop}
    (h : Sees R J) (names : List String) : ∀ name ∈ names, ShowsVar R name :=
  fun name _ _ _ hst => h.vars hst name

/-- Two questions that are answered alike from related outsides. -/
structure AsksAlike (J : Outside σ → Outside τ → Prop) (f : Act σ α) (g : Act τ α) : Prop where
  answer : ∀ o p, J o p → (f o.world).1 = (g p.world).1
  kept : ∀ o p, J o p →
    J { o with world := (f o.world).2 } { p with world := (g p.world).2 }

theorem AsksAlike.constant {J : Outside σ → Outside τ → Prop} {f : Act σ α} {g : Act τ α}
    (answer : α)
    (hf : ∀ world, f world = (answer, world)) (hg : ∀ world, g world = (answer, world)) :
    AsksAlike J f g := by
  constructor
  · intro o p _
    rw [hf, hg]
  · intro o p h
    rw [hf, hg]
    exact h

theorem AsksAlike.refl (f : Act σ α) : AsksAlike (fun o p : Outside σ => o = p) f f :=
  ⟨fun _ _ h => h ▸ rfl, fun _ _ h => h ▸ rfl⟩

/-- What must hold of two setups so that expressions are evaluated alike. -/
structure SameSight (a : Setup σ) (b : Setup τ) (J : Outside σ → Outside τ → Prop)
    (Cut : Termination → Outside σ → Outside τ → Prop) : Prop where
  actor : a.options.actor = b.options.actor
  ops : ∀ o p, J o p → o.ops = p.ops
  lastOp : ∀ o p, J o p → o.lastOp = p.lastOp
  lastOk : ∀ o p, J o p → o.lastOk = p.lastOk
  stamp : ∀ o p, J o p → o.journal.createdAt = p.journal.createdAt
  pose : AsksAlike J a.context.probe.pose b.context.probe.pose
  search : ∀ query origin, AsksAlike J
    (a.context.probe.findBlock query origin a.options.defaultScanRadius)
    (b.context.probe.findBlock query origin b.options.defaultScanRadius)
  waypoint : ∀ name, AsksAlike J
    (a.context.waypoint a.options.actor name) (b.context.waypoint b.options.actor name)
  predicate : ∀ name, Option.Rel
    (fun h h' => ∀ args, AsksAlike J (h.evaluate args) (h'.evaluate args))
    (a.context.registry.predicate? name) (b.context.registry.predicate? name)
  told : ∀ loc name value o p, name ≠ lastOkName → J o p →
    J (o.traced a loc (.predicateEvaluated name value))
      (p.traced b loc (.predicateEvaluated name value))
  toldLastOk : ∀ loc o p, J o p →
    J (o.traced a loc (.predicateEvaluated lastOkName (o.lastOk.getD true)))
      (p.traced b loc (.predicateEvaluated lastOkName (p.lastOk.getD true)))
  cutWorld : ∀ x o p world, Cut x o p → Cut x o { p with world := world }
  cutTraced : ∀ x o p loc kind, Cut x o p → Cut x o (p.traced b loc kind)

section Evaluation

variable {a : Setup σ} {b : Setup τ} {R : State σ → State τ → Prop}
  {J : Outside σ → Outside τ → Prop} {Cut : Termination → Outside σ → Outside τ → Prop}

namespace SameSight

theorem terminate_eq (hs : SameSight a b J Cut) {s : State σ} {t : State τ}
    (h : J s.outside t.outside) (halt : Halt) (loc : Location) (notes : List String) :
    terminate halt loc notes s = terminate halt loc notes t := by
  have hops : s.ops = t.ops := hs.ops _ _ h
  have hop : s.lastOp = t.lastOp := hs.lastOp _ _ h
  have hstamp : s.journal.createdAt = t.journal.createdAt := hs.stamp _ _ h
  simp only [terminate, hops, hop, hstamp]

theorem failWith (hs : SameSight a b J Cut) (hR : Shows R J) (halt : Halt) (loc : Location)
    (notes : List String) :
    Follows R Cut (Run.failWith halt loc notes : Run σ α)
      (Run.failWith halt loc notes) := by
  constructor
  · intro s t h
    change Agree _ _ (.error (terminate halt loc notes s), s)
      (.error (terminate halt loc notes t), t)
    rw [hs.terminate_eq (hR.outside h)]
    exact .both h
  · intro _ _ _ h
    exact h

theorem fail (hs : SameSight a b J Cut) (hR : Shows R J) (halt : Halt) (loc : Location) :
    Follows R Cut (Run.fail halt loc : Run σ α) (Run.fail halt loc) :=
  hs.failWith hR halt loc []

theorem ask (hs : SameSight a b J Cut) (hR : Shows R J) {f : Act σ α} {g : Act τ α}
    (h : AsksAlike J f g) :
    Follows R Cut (Run.ask f) (Run.ask g) := by
  constructor
  · intro s t hst
    rw [ask_eq, ask_eq]
    have hanswer : (f s.world).1 = (g t.world).1 := h.answer _ _ (hR.outside hst)
    rw [hanswer]
    exact .both (hR.update hst (h.kept _ _ (hR.outside hst)))
  · intro x o t hcut
    exact hs.cutWorld x o t.outside _ hcut

/-- Publishing a trace, where the relation allows for it. -/
theorem trace (hs : SameSight a b J Cut) (hR : Shows R J) {loc : Location} {kind : TraceKind}
    (h : ∀ o p, J o p → J (o.traced a loc kind) (p.traced b loc kind)) :
    Follows R Cut (Run.trace a loc kind) (Run.trace b loc kind) := by
  constructor
  · intro s t hst
    rw [trace_eq, trace_eq]
    exact .both (hR.update hst (h _ _ (hR.outside hst)))
  · intro x o t hcut
    rw [trace_eq]
    exact hs.cutTraced x o t.outside loc kind hcut

/-! ### Positions -/

theorem ofProbe (hs : SameSight a b J Cut) (hR : Shows R J) (loc : Location)
    (answer : Except ProbeError α) :
    Follows R Cut (Run.ofProbe loc answer) (Run.ofProbe loc answer) := by
  cases answer with
  | ok value => exact .pure value
  | error e => exact hs.fail hR _ loc

theorem poseAt (hs : SameSight a b J Cut) (hR : Shows R J) (loc : Location) :
    Follows R Cut (Run.pose a loc) (Run.pose b loc) :=
  .bind (hs.ask hR hs.pose) fun answer => hs.ofProbe hR loc answer

theorem resolve (hs : SameSight a b J Cut) (origin : Orientation) (value : Value) :
    AsksAlike J (value.resolve (a.context.waypoint a.options.actor) origin)
      (value.resolve (b.context.waypoint b.options.actor) origin) := by
  cases value with
  | int n => exact .constant _ (fun _ => rfl) fun _ => rfl
  | bool b => exact .constant _ (fun _ => rfl) fun _ => rfl
  | text s => exact .constant _ (fun _ => rfl) fun _ => rfl
  | world p => exact .constant _ (fun _ => rfl) fun _ => rfl
  | selector s =>
    have hlocal : ∀ {ρ : Type} (lookup : WaypointLookup ρ) (world : ρ),
        (Value.selector s).resolve lookup origin world =
          ((s.resolve? origin).elim (.error (.overflow s)) .ok, world) := by
      intro ρ lookup world
      cases hr : s.resolve? origin <;> simp only [Value.resolve, hr, Option.elim]
    exact .constant _ (hlocal _) (hlocal _)
  | query q =>
    have hlocal : ∀ {ρ : Type} (lookup : WaypointLookup ρ) (world : ρ),
        (Value.query q).resolve lookup origin world =
          (q.pin.elim (.error (.notSpatial (.query q))) .ok, world) := by
      intro ρ lookup world
      cases hr : q.pin <;> simp only [Value.resolve, hr, Option.elim]
    exact .constant _ (hlocal _) (hlocal _)
  | waypoint name =>
    exact ⟨fun o p h => congrArg (waypointPosition name) ((hs.waypoint name).answer o p h),
      (hs.waypoint name).kept⟩

theorem resolveNow (hs : SameSight a b J Cut) (hR : Shows R J) (loc : Location) (value : Value) :
    Follows R Cut (Run.resolveNow a loc value) (Run.resolveNow b loc value) := by
  refine .bind (hs.poseAt hR loc) fun pose =>
    .bind (hs.ask hR (hs.resolve pose.orientation value)) ?_
  intro answer
  cases answer with
  | ok position => exact .pure position
  | error e => exact hs.fail hR _ loc

theorem originOf (hs : SameSight a b J Cut) (hR : Shows R J) (loc : Location) (p : Preparation) :
    Follows R Cut (Run.originOf a loc p) (Run.originOf b loc p) := by
  unfold Run.originOf
  cases p.origin with
  | some origin => exact .pure origin
  | none => exact .bind (hs.poseAt hR loc) fun pose => .pure _

theorem prepareFrom (hs : SameSight a b J Cut) (hR : Shows R J) (loc : Location)
    (values : List (Option String × Value)) (p : Preparation) :
    Follows R Cut (Run.prepareFrom a loc p values)
      (Run.prepareFrom b loc p values) := by
  induction values generalizing p with
  | nil => exact .pure _
  | cons first rest ih =>
    obtain ⟨key, value⟩ := first
    simp only [Run.prepareFrom]
    cases plainArgument? value with
    | some argument => exact ih _
    | none =>
      refine .bind (hs.originOf hR loc p) fun origin =>
        .bind (hs.ask hR (hs.resolve origin value)) ?_
      intro answer
      rw [hs.actor]
      match answer with
      | .ok position => exact ih _
      | .error (.overflow selector) => exact hs.fail hR _ loc
      | .error (.missingWaypoint name) => exact .pure _
      | .error (.store e) => exact .pure _
      | .error (.notSpatial v) => exact .pure _

theorem prepare (hs : SameSight a b J Cut) (hR : Shows R J) (loc : Location)
    (values : List (Option String × Value)) :
    Follows R Cut (Run.prepare a loc values) (Run.prepare b loc values) :=
  hs.prepareFrom hR loc values _

/-! ### Values -/

theorem searchOrigin (hs : SameSight a b J Cut) (hR : Shows R J) (loc : Location) (query : Query) :
    Follows R Cut (Run.searchOrigin a loc query) (Run.searchOrigin b loc query) := by
  unfold Run.searchOrigin
  cases query.pin with
  | some position => exact .pure position
  | none => exact .bind (hs.poseAt hR loc) fun _ => .pure _

theorem truthy (hs : SameSight a b J Cut) (hR : Shows R J) (loc : Location) (value : Value) :
    Follows R Cut (Run.truthy a loc value) (Run.truthy b loc value) := by
  cases value with
  | bool v => exact .pure v
  | int n => exact .pure _
  | query q =>
    exact .bind (hs.searchOrigin hR loc q) fun origin =>
      .bind (hs.ask hR (hs.search q origin)) fun found =>
        .bind (hs.ofProbe hR loc found) fun _ => .pure _
  | text s => exact hs.fail hR _ loc
  | selector s => exact hs.fail hR _ loc
  | world p => exact hs.fail hR _ loc
  | waypoint n => exact hs.fail hR _ loc

theorem asInt (hs : SameSight a b J Cut) (hR : Shows R J) (what : String) (loc : Location)
    (value : Value) :
    Follows R Cut (Run.asInt what loc value : Run σ Int64)
      (Run.asInt what loc value) := by
  cases value with
  | int n => exact .pure n
  | bool v => exact hs.fail hR _ loc
  | query q => exact hs.fail hR _ loc
  | text s => exact hs.fail hR _ loc
  | selector s => exact hs.fail hR _ loc
  | world p => exact hs.fail hR _ loc
  | waypoint n => exact hs.fail hR _ loc

theorem coordinate (hs : SameSight a b J Cut) (hR : Shows R J) (loc : Location) (value : Value) :
    Follows R Cut (Run.coordinate loc value : Run σ Int32)
      (Run.coordinate loc value) := by
  refine .bind (hs.asInt hR _ loc value) fun n => ?_
  cases fit32 n.toInt with
  | some c => exact .pure c
  | none => exact hs.fail hR _ loc

theorem addCriterion (hs : SameSight a b J Cut) (hR : Shows R J) (query : Query) (key : String)
    (loc : Location)
    (value : Value) :
    Follows R Cut (Run.addCriterion a query key loc value)
      (Run.addCriterion b query key loc value) := by
  unfold Run.addCriterion
  split
  · exact .bind (hs.resolveNow hR loc value) fun _ => .pure _
  · cases value with
    | text s => exact .pure _
    | int n => exact .pure _
    | bool v => exact .pure _
    | query q => exact hs.fail hR _ loc
    | selector s => exact hs.fail hR _ loc
    | world p => exact hs.fail hR _ loc
    | waypoint n => exact hs.fail hR _ loc

theorem negate (hs : SameSight a b J Cut) (hR : Shows R J) (loc : Location) (value : Value) :
    Follows R Cut (Run.negate loc value : Run σ Value) (Run.negate loc value) := by
  cases value with
  | int n =>
    simp only [Run.negate]
    cases fit64 (-n.toInt) with
    | some m => exact .pure _
    | none => exact hs.fail hR _ loc
  | bool v => exact hs.fail hR _ loc
  | query q => exact hs.fail hR _ loc
  | text s => exact hs.fail hR _ loc
  | selector s => exact hs.fail hR _ loc
  | world p => exact hs.fail hR _ loc
  | waypoint n => exact hs.fail hR _ loc

theorem applyStrict (hs : SameSight a b J Cut) (hR : Shows R J) (op : BinaryOp) (loc : Location)
    (lhs rhs : Value) :
    Follows R Cut (Run.applyStrict op loc lhs rhs : Run σ Value)
      (Run.applyStrict op loc lhs rhs) := by
  unfold Run.applyStrict
  cases Value.apply op lhs rhs with
  | ok value => exact .pure value
  | error e => exact hs.fail hR _ loc

/-! ### Predicates -/

theorem lastOkRead (hs : SameSight a b J Cut) (hR : Shows R J) (loc : Location)
    (noArguments : Bool) :
    Follows R Cut (Run.lastOk a loc noArguments)
      (Run.lastOk b loc noArguments) := by
  cases noArguments with
  | false => exact hs.fail hR _ loc
  | true =>
    constructor
    · intro s t h
      have hok : s.lastOk = t.lastOk := hs.lastOk _ _ (hR.outside h)
      have hkept := hR.update h (hs.toldLastOk loc _ _ (hR.outside h))
      rw [lastOk_eq, lastOk_eq]
      rw [show s.outside.lastOk = t.lastOk from hok] at hkept
      rw [hok]
      exact .both hkept
    · intro x o t hcut
      rw [lastOk_eq]
      exact hs.cutTraced x o t.outside loc _ hcut

theorem evaluatePredicate (hs : SameSight a b J Cut) (hR : Shows R J) {name : String}
    (hname : name ≠ lastOkName)
    (loc : Location) {h : PredicateHandler σ} {h' : PredicateHandler τ}
    (hh : ∀ args, AsksAlike J (h.evaluate args) (h'.evaluate args))
    (values : List (Option String × Value)) :
    Follows R Cut (Run.evaluatePredicate a name loc h values)
      (Run.evaluatePredicate b name loc h' values) := by
  refine .bind (hs.prepare hR loc values) fun prepared => ?_
  cases prepared with
  | lookupFailed message notes => exact hs.failWith hR _ loc notes
  | ready args notes =>
    refine .bind (hs.ask hR (hh args)) fun answer => ?_
    cases answer with
    | ok value =>
      exact .bind (hs.trace hR fun o p hj => hs.told loc name value o p hname hj) fun _ =>
        .pure value
    | error fault => exact hs.fail hR _ loc

/-! ### Expressions -/

/- The two states need to agree only on the variables that an expression reads. -/
mutual

theorem eval_of_vars (hs : SameSight a b J Cut) (hR : Shows R J) :
    ∀ e : Expr, (∀ name ∈ Variables.ofExpr e, ShowsVar R name) →
      Follows R Cut (Run.eval a e) (Run.eval b e)
  | .int .., _ => .pure _
  | .text .., _ => .pure _
  | .bool .., _ => .pure _
  | .selector .., _ => .pure _
  | .waypoint .., _ => .pure _
  | .ident name loc, h => by
    refine .bind (.read (h name List.mem_cons_self)) fun found => ?_
    cases found with
    | some value => exact .pure value
    | none => exact hs.fail hR _ loc
  | .world x y z _, h => by
    rw [Variables.ofExpr, List.forall_mem_append, List.forall_mem_append] at h
    obtain ⟨⟨hx, hy⟩, hz⟩ := h
    refine .bind (eval_of_vars hs hR x hx) fun vx => .bind (hs.coordinate hR _ vx) fun _ => ?_
    refine .bind (eval_of_vars hs hR y hy) fun vy => .bind (hs.coordinate hR _ vy) fun _ => ?_
    exact .bind (eval_of_vars hs hR z hz) fun vz => .bind (hs.coordinate hR _ vz) fun _ => .pure _
  | .query criteria _, h => .bind (evalCriteria_of_vars hs hR criteria _ h) fun _ => .pure _
  | .predicate name args loc, h => by
    unfold Run.eval
    split
    · exact .bind (hs.lastOkRead hR loc _) fun _ => .pure _
    · next hname =>
      have hp := hs.predicate name
      revert hp
      cases a.context.registry.predicate? name <;> cases b.context.registry.predicate? name <;>
        intro hp
      · exact hs.fail hR _ loc
      · cases hp
      · cases hp
      · cases hp with
        | some hh =>
          exact .bind (evalArgs_of_vars hs hR args h) fun values =>
            .bind (hs.evaluatePredicate hR hname loc hh values) fun _ => .pure _
  | .unary op operand loc, h => by
    refine .bind (eval_of_vars hs hR operand h) fun value => ?_
    cases op with
    | not => exact .bind (hs.truthy hR _ value) fun _ => .pure _
    | neg => exact hs.negate hR loc value
  | .binary op left right, h => by
    rw [Variables.ofExpr, List.forall_mem_append] at h
    obtain ⟨hleft, hright⟩ := h
    have hrest := eval_of_vars hs hR right hright
    refine .bind (eval_of_vars hs hR left hleft) fun lhs => ?_
    -- The connectives look at the left side before they evaluate the right one.
    cases op with
    | and =>
      refine .bind (hs.truthy hR _ lhs) fun decided => ?_
      cases decided with
      | true => exact .bind hrest fun rhs => .bind (hs.truthy hR _ rhs) fun _ => .pure _
      | false => exact .pure _
    | or =>
      refine .bind (hs.truthy hR _ lhs) fun decided => ?_
      cases decided with
      | true => exact .pure _
      | false => exact .bind hrest fun rhs => .bind (hs.truthy hR _ rhs) fun _ => .pure _
    | eq => exact .bind hrest fun rhs => hs.applyStrict hR _ _ lhs rhs
    | ne => exact .bind hrest fun rhs => hs.applyStrict hR _ _ lhs rhs
    | lt => exact .bind hrest fun rhs => hs.applyStrict hR _ _ lhs rhs
    | le => exact .bind hrest fun rhs => hs.applyStrict hR _ _ lhs rhs
    | gt => exact .bind hrest fun rhs => hs.applyStrict hR _ _ lhs rhs
    | ge => exact .bind hrest fun rhs => hs.applyStrict hR _ _ lhs rhs
    | add => exact .bind hrest fun rhs => hs.applyStrict hR _ _ lhs rhs
    | sub => exact .bind hrest fun rhs => hs.applyStrict hR _ _ lhs rhs
    | mul => exact .bind hrest fun rhs => hs.applyStrict hR _ _ lhs rhs
    | div => exact .bind hrest fun rhs => hs.applyStrict hR _ _ lhs rhs

theorem evalCriteria_of_vars (hs : SameSight a b J Cut) (hR : Shows R J) :
    ∀ (criteria : List (String × Expr)) (query : Query),
      (∀ name ∈ Variables.ofCriteria criteria, ShowsVar R name) →
      Follows R Cut (Run.evalCriteria a query criteria) (Run.evalCriteria b query criteria)
  | [], _, _ => .pure _
  | (key, e) :: rest, query, h => by
    rw [Variables.ofCriteria, List.forall_mem_append] at h
    exact .bind (eval_of_vars hs hR e h.1) fun value =>
      .bind (hs.addCriterion hR query key e.loc value) fun query =>
        evalCriteria_of_vars hs hR rest query h.2

theorem evalArgs_of_vars (hs : SameSight a b J Cut) (hR : Shows R J) :
    ∀ args : List (Arg Expr), (∀ name ∈ Variables.ofArgs args, ShowsVar R name) →
      Follows R Cut (Run.evalArgs a args) (Run.evalArgs b args)
  | [], _ => .pure _
  | ⟨_, e⟩ :: rest, h => by
    rw [Variables.ofArgs, List.forall_mem_append] at h
    exact .bind (eval_of_vars hs hR e h.1) fun _ =>
      .bind (evalArgs_of_vars hs hR rest h.2) fun _ => .pure _

end

theorem evalInt_of_vars (hs : SameSight a b J Cut) (hR : Shows R J) (what : String) {e : Expr}
    (h : ∀ name ∈ Variables.ofExpr e, ShowsVar R name) :
    Follows R Cut (Run.evalInt a what e) (Run.evalInt b what e) :=
  .bind (hs.eval_of_vars hR e h) fun value => hs.asInt hR what e.loc value

theorem evalCondition_of_vars (hs : SameSight a b J Cut) (hR : Shows R J) {e : Expr}
    (h : ∀ name ∈ Variables.ofExpr e, ShowsVar R name) :
    Follows R Cut (Run.evalCondition a e) (Run.evalCondition b e) :=
  .bind (hs.eval_of_vars hR e h) fun value => hs.truthy hR e.loc value

theorem ofBinding (hs : SameSight a b J Cut) (hR : Shows R J) (callee : String) (loc : Location)
    (answer : Except BindError α) :
    Follows R Cut (Run.ofBinding callee loc answer) (Run.ofBinding callee loc answer) := by
  cases answer with
  | ok value => exact .pure value
  | error e => exact hs.fail hR _ loc

theorem placeArgs_of_vars (hs : SameSight a b J Cut) (hR : Shows R J) (callee : String)
    (loc : Location) (given : Nat) {args : List (Arg Expr)}
    (h : ∀ name ∈ Variables.ofArgs args, ShowsVar R name) (binding : Binding) :
    Follows R Cut (Run.placeArgs a callee loc given binding args)
      (Run.placeArgs b callee loc given binding args) := by
  induction args generalizing binding with
  | nil => exact .pure binding
  | cons arg rest ih =>
    rw [Variables.ofArgs, List.forall_mem_append] at h
    exact .bind (hs.eval_of_vars hR arg.value h.1) fun value =>
      .bind (hs.ofBinding hR callee loc _) fun binding => ih h.2 binding

theorem bindArgs_of_vars (hs : SameSight a b J Cut) (hR : Shows R J) (callee : String)
    (loc : Location) (params : List CallParam) {args : List (Arg Expr)}
    (h : ∀ name ∈ Variables.ofArgs args, ShowsVar R name) :
    Follows R Cut (Run.bindArgs a callee loc params args) (Run.bindArgs b callee loc params args) :=
  .bind (hs.placeArgs_of_vars hR callee loc _ h _) fun _ => hs.ofBinding hR callee loc _

/-! ### Expressions where all variables are shown -/

theorem eval (hs : SameSight a b J Cut) (hR : Sees R J) (e : Expr) :
    Follows R Cut (Run.eval a e) (Run.eval b e) :=
  hs.eval_of_vars hR e (hR.showsVars _)

theorem evalArgs (hs : SameSight a b J Cut) (hR : Sees R J) (args : List (Arg Expr)) :
    Follows R Cut (Run.evalArgs a args) (Run.evalArgs b args) :=
  hs.evalArgs_of_vars hR args (hR.showsVars _)

theorem evalInt (hs : SameSight a b J Cut) (hR : Sees R J) (what : String) (e : Expr) :
    Follows R Cut (Run.evalInt a what e) (Run.evalInt b what e) :=
  hs.evalInt_of_vars hR what (hR.showsVars _)

theorem evalCondition (hs : SameSight a b J Cut) (hR : Sees R J) (e : Expr) :
    Follows R Cut (Run.evalCondition a e) (Run.evalCondition b e) :=
  hs.evalCondition_of_vars hR (hR.showsVars _)

theorem placeArgs (hs : SameSight a b J Cut) (hR : Sees R J) (callee : String) (loc : Location)
    (given : Nat) (args : List (Arg Expr)) (binding : Binding) :
    Follows R Cut (Run.placeArgs a callee loc given binding args)
      (Run.placeArgs b callee loc given binding args) :=
  hs.placeArgs_of_vars hR callee loc given (hR.showsVars _) binding

theorem bindArgs (hs : SameSight a b J Cut) (hR : Sees R J) (callee : String) (loc : Location)
    (params : List CallParam) (args : List (Arg Expr)) :
    Follows R Cut (Run.bindArgs a callee loc params args) (Run.bindArgs b callee loc params args) :=
  hs.bindArgs_of_vars hR callee loc params (hR.showsVars _)

/-- A setup sees what it sees. -/
theorem refl (setup : Setup σ) : SameSight setup setup (fun o p => o = p) (fun _ _ _ => False) where
  actor := rfl
  ops := fun _ _ h => h ▸ rfl
  lastOp := fun _ _ h => h ▸ rfl
  lastOk := fun _ _ h => h ▸ rfl
  stamp := fun _ _ h => h ▸ rfl
  pose := .refl _
  search := fun _ _ => .refl _
  waypoint := fun _ => .refl _
  predicate := fun name => by
    cases setup.context.registry.predicate? name with
    | none => exact .none
    | some handler => exact .some fun _ => .refl _
  told := fun _ _ _ _ _ _ h => h ▸ rfl
  toldLastOk := fun _ _ _ h => h ▸ rfl
  cutWorld := fun _ _ _ _ h => h
  cutTraced := fun _ _ _ _ _ h => h

end SameSight

end Evaluation

/-! ## What evaluation leaves alone -/

/-- A step that changes nothing but the outside. -/
def Outward (m : Run σ α) : Prop := ∀ s, ∃ o, (m s).2 = s.withOutside o

/-- A step that follows itself under every relation that sees equal outsides is outward. -/
theorem Outward.of_follows {m : Run σ α}
    (h : ∀ R : State σ → State σ → Prop, Sees R (fun o p => o = p) →
      Follows R (fun _ _ _ => False) m m) : Outward m := by
  intro s
  let R : State σ → State σ → Prop := fun u v => u = v ∧ ∃ o, u = s.withOutside o
  have hR : Sees R (fun o p => o = p) :=
    { outside := fun h => congrArg State.outside h.1
      vars := fun h name => h.1 ▸ rfl
      update := fun {u v o p} h hop => by
        obtain ⟨rfl, o', rfl⟩ := h
        exact ⟨hop ▸ rfl, o, rfl⟩ }
  have hagree := (h R hR).agree s s ⟨rfl, s.outside, rfl⟩
  generalize hm : m s = result at hagree
  cases hagree with
  | both h => exact h.2
  | cut h => exact h.elim

end Run

end BlockScript
