import BlockScript.Proofs.Report.Journal
import BlockScript.Proofs.Run.Commands

/-!
# What single steps leave alone

Evaluation asks the world outside and publishes traces, and does nothing else to a run. Looking a
function up and checking names change no scope, and of the scopes they read nothing but macros. A
command changes neither scopes nor what is known of functions.
-/
namespace BlockScript
set_option autoImplicit false

namespace Run

variable {σ α β : Type}

/-- A step that succeeds is made of steps that succeed. -/
theorem bind_eq_ok {m : Run σ α} {k : α → Run σ β} {s s' : State σ} {b : β}
    (h : (m >>= k) s = (.ok b, s')) : ∃ a s₁, m s = (.ok a, s₁) ∧ k a s₁ = (.ok b, s') := by
  cases hm : m s with
  | mk answer s₁ =>
    cases answer with
    | error x =>
      rw [bind_error hm] at h
      cases h
    | ok a =>
      rw [bind_ok hm] at h
      exact ⟨a, s₁, rfl, h⟩

/-- Arguments that have values have them one after the other. -/
theorem evalArgs_cons_eq_ok {setup : Setup σ} {arg : Arg Expr} {args : List (Arg Expr)}
    {values : List (Option String × Value)} {s s' : State σ}
    (h : evalArgs setup (arg :: args) s = (.ok values, s')) :
    ∃ value others s₁, eval setup arg.value s = (.ok value, s₁) ∧
      evalArgs setup args s₁ = (.ok others, s') ∧ values = (arg.key, value) :: others := by
  obtain ⟨key, e⟩ := arg
  rw [evalArgs] at h
  obtain ⟨value, s₁, hvalue, h⟩ := bind_eq_ok h
  obtain ⟨others, s₂, hothers, hpure⟩ := bind_eq_ok h
  cases hpure
  exact ⟨value, others, s₁, hvalue, hothers, rfl⟩

theorem read_at {part : State σ → α} {x : α} {s : State σ} (h : part s = x) :
    read part s = (.ok x, s) := by
  rw [← h]
  rfl

theorem read_eq_ok {f : State σ → α} {s s' : State σ} {a : α} (h : read f s = (.ok a, s')) :
    f s = a ∧ s = s' := by
  cases h
  exact ⟨rfl, rfl⟩

/-- Two runs of which none is ever cut off answer alike. -/
theorem Agree.uncut {R : State σ → State σ → Prop} {first second : Except Termination α × State σ}
    (h : Agree R (fun _ _ _ => False) first second) : first.1 = second.1 ∧ R first.2 second.2 := by
  cases h with
  | both hstates => exact ⟨rfl, hstates⟩
  | cut hcut => exact hcut.elim

/-! ## How steps end -/

/-- How a step ends: with an answer of which `Q` holds, or with a termination of which `E` holds. -/
structure Ends (m : Run σ α) (s : State σ) (Q : α → State σ → Prop)
    (E : Termination → State σ → Prop) : Prop where
  ok : ∀ a s', m s = (.ok a, s') → Q a s'
  error : ∀ x s', m s = (.error x, s') → E x s'

namespace Ends

variable {s : State σ} {m : Run σ α} {Q : α → State σ → Prop} {Q' : β → State σ → Prop}
  {E E' : Termination → State σ → Prop}

theorem pure {a : α} (h : Q a s) : Ends (Pure.pure a) s Q E := by
  constructor
  · rintro _ _ ⟨⟩
    exact h
  · rintro _ _ ⟨⟩

theorem bind {k : α → Run σ β} (hm : Ends m s Q E)
    (hk : ∀ a s', m s = (.ok a, s') → Q a s' → Ends (k a) s' Q' E) : Ends (m >>= k) s Q' E := by
  constructor
  · intro b s' h
    obtain ⟨a, s₁, hfirst, hrest⟩ := bind_eq_ok h
    exact (hk a s₁ hfirst (hm.ok a s₁ hfirst)).ok b s' hrest
  · intro x s' h
    cases hs : m s with
    | mk answer s₁ =>
      cases answer with
      | error y =>
        rw [bind_error hs] at h
        cases h
        exact hm.error x s' hs
      | ok a =>
        rw [bind_ok hs] at h
        exact (hk a s₁ hs (hm.ok a s₁ hs)).error x s' h

theorem of_ok {a : α} {s' : State σ} (hm : m s = (.ok a, s')) (h : Q a s') : Ends m s Q E := by
  constructor
  · intro b t hs
    rw [hm] at hs
    cases hs
    exact h
  · intro x t hs
    rw [hm] at hs
    cases hs

theorem of_error {x : Termination} {s' : State σ} (hm : m s = (.error x, s')) (h : E x s') :
    Ends m s Q E := by
  constructor
  · intro a t hs
    rw [hm] at hs
    cases hs
  · intro y t hs
    rw [hm] at hs
    cases hs
    exact h

theorem imp {R : α → State σ → Prop} (h : Ends m s Q E) (hQ : ∀ a s', Q a s' → R a s')
    (hE : ∀ x s', E x s' → E' x s') : Ends m s R E' :=
  ⟨fun a s' hs => hQ a s' (h.ok a s' hs), fun x s' hs => hE x s' (h.error x s' hs)⟩

theorem fail {halt : Halt} {loc : Location} (h : E (terminate halt loc [] s) s) :
    Ends (Run.fail halt loc : Run σ α) s Q E := by
  constructor
  · rintro _ _ ⟨⟩
  · rintro _ _ ⟨⟩
    exact h

theorem read_bind {f : State σ → α} {k : α → Run σ β} (h : Ends (k (f s)) s Q' E) :
    Ends (Run.read f >>= k) s Q' E :=
  ⟨h.ok, h.error⟩

theorem modify {f : State σ → State σ} {Q : Unit → State σ → Prop} (h : Q () (f s)) :
    Ends (Run.modify f) s Q E := by
  constructor
  · rintro _ _ ⟨⟩
    exact h
  · rintro _ _ ⟨⟩

theorem modify_bind {f : State σ → State σ} {k : Unit → Run σ β} (h : Ends (k ()) (f s) Q' E) :
    Ends (Run.modify f >>= k) s Q' E :=
  ⟨h.ok, h.error⟩

end Ends

/-! ## Evaluation -/

/-- A step that asks the world outside and publishes events, and changes nothing else. -/
def Looks (m : Run σ α) : Prop :=
  ∀ s, ∃ world events, (m s).2 =
    s.withOutside { s.outside with world := world, journal := s.journal.noteAll events }

/-- A question after which a property of the outside still holds. -/
def Harmless (Inv : Outside σ → Prop) (act : Act σ α) : Prop :=
  ∀ o, Inv o → Inv { o with world := (act o.world).2 }

/-- The questions and the traces of evaluation keep a property of the outside. -/
structure Sighted (setup : Setup σ) (Inv : Outside σ → Prop) : Prop where
  pose : Harmless Inv setup.context.probe.pose
  search : ∀ query origin,
    Harmless Inv (setup.context.probe.findBlock query origin setup.options.defaultScanRadius)
  waypoint : ∀ name, Harmless Inv (setup.context.waypoint setup.options.actor name)
  predicate : ∀ name handler, setup.context.registry.predicate? name = some handler →
    ∀ args, Harmless Inv (handler.evaluate args)
  told : ∀ o loc name value, Inv o → Inv (o.traced setup loc (.predicateEvaluated name value))

/-- A setup sees what it sees, whatever its questions and traces keep of the outside. -/
theorem SameSight.keeping {setup : Setup σ} {Inv : Outside σ → Prop} (h : Sighted setup Inv) :
    SameSight setup setup (fun o p => o = p ∧ Inv o) (fun _ _ _ => False) := by
  have hasks : ∀ {γ : Type} {act : Act σ γ}, Harmless Inv act →
      AsksAlike (fun o p : Outside σ => o = p ∧ Inv o) act act := by
    intro γ act hact
    refine ⟨fun o p h => h.1 ▸ rfl, fun o p h => ?_⟩
    obtain ⟨rfl, hinv⟩ := h
    exact ⟨rfl, hact o hinv⟩
  exact
    { actor := rfl
      ops := fun _ _ h => h.1 ▸ rfl
      lastOp := fun _ _ h => h.1 ▸ rfl
      lastOk := fun _ _ h => h.1 ▸ rfl
      stamp := fun _ _ h => h.1 ▸ rfl
      pose := hasks h.pose
      search := fun query origin => hasks (h.search query origin)
      waypoint := fun name => hasks (h.waypoint name)
      predicate := fun name => by
        cases hfound : setup.context.registry.predicate? name with
        | none => exact .none
        | some handler => exact .some fun args => hasks (h.predicate name handler hfound args)
      told := fun loc name value o p _ hsame => by
        obtain ⟨rfl, hinv⟩ := hsame
        exact ⟨rfl, h.told o loc name value hinv⟩
      toldLastOk := fun loc o p hsame => by
        obtain ⟨rfl, hinv⟩ := hsame
        exact ⟨rfl, h.told o loc lastOkName _ hinv⟩
      cutWorld := fun _ _ _ _ h => h
      cutTraced := fun _ _ _ _ _ h => h }

namespace Looks

/-- The outside after some questions and some events. -/
def Seen (start o : Outside σ) : Prop :=
  ∃ world events, o = { start with world := world, journal := start.journal.noteAll events }

theorem Seen.traced {start o : Outside σ} (h : Seen start o) (setup : Setup σ) (loc : Location)
    (kind : TraceKind) : Seen start (o.traced setup loc kind) := by
  obtain ⟨world, events, rfl⟩ := h
  unfold Outside.traced
  split
  · refine ⟨world, events ++ [.trace ⟨(start.journal.noteAll events).createdAt, loc, kind⟩], ?_⟩
    rw [Journal.noteAll_concat, Journal.trace_eq]
  · exact ⟨world, events, rfl⟩

/-- A step that follows itself wherever a setup sees the same looks and does no more. -/
theorem of_sight (setup : Setup σ) {m : Run σ α}
    (h : ∀ (J : Outside σ → Outside σ → Prop) (Cut : Termination → Outside σ → Outside σ → Prop)
      (R : State σ → State σ → Prop), SameSight setup setup J Cut → Sees R J → Follows R Cut m m) :
    Looks m := by
  intro s
  have hsight : SameSight setup setup (fun o p => o = p ∧ Seen s.outside o)
      (fun _ _ _ => False) := by
    have hasked : ∀ {γ : Type} (act : Act σ γ), Harmless (Seen s.outside) act := by
      rintro γ act o ⟨world, events, rfl⟩
      exact ⟨(act world).2, events, rfl⟩
    refine .keeping
      { pose := hasked _
        search := fun _ _ => hasked _
        waypoint := fun _ => hasked _
        predicate := fun _ _ _ _ => hasked _
        told := ?_ }
    intro o loc name value hseen
    exact hseen.traced setup loc _
  let R : State σ → State σ → Prop := fun u v =>
    u = v ∧ ∃ o, Seen s.outside o ∧ u = s.withOutside o
  have hR : Sees R (fun o p => o = p ∧ Seen s.outside o) :=
    { outside := by
        rintro u v ⟨rfl, o, hseen, rfl⟩
        exact ⟨rfl, hseen⟩
      vars := fun h name => h.1 ▸ rfl
      update := by
        rintro u v o p ⟨rfl, o', -, rfl⟩ ⟨rfl, hseen⟩
        exact ⟨rfl, o, hseen, rfl⟩ }
  have hstart : R s s := ⟨rfl, s.outside, ⟨s.world, [], rfl⟩, rfl⟩
  obtain ⟨-, o, ⟨world, events, rfl⟩, hstate⟩ := ((h _ _ R hsight hR).agree s s hstart).uncut.2
  exact ⟨world, events, hstate⟩

theorem eval (setup : Setup σ) (e : Expr) : Looks (Run.eval setup e) :=
  of_sight setup fun _ _ _ hs hR => hs.eval hR e

theorem placeArgs (setup : Setup σ) (callee : String) (loc : Location) (given : Nat)
    (binding : Binding) (args : List (Arg Expr)) :
    Looks (Run.placeArgs setup callee loc given binding args) :=
  of_sight setup fun _ _ _ hs hR => hs.placeArgs hR callee loc given args binding

theorem bindArgs (setup : Setup σ) (callee : String) (loc : Location) (params : List CallParam)
    (args : List (Arg Expr)) : Looks (Run.bindArgs setup callee loc params args) :=
  of_sight setup fun _ _ _ hs hR => hs.bindArgs hR callee loc params args

/-- A run that looks around would be terminated in the same words as before. -/
theorem terminate_eq {m : Run σ α} (h : Looks m) (s : State σ) (halt : Halt) (loc : Location)
    (notes : List String) : terminate halt loc notes (m s).2 = terminate halt loc notes s := by
  obtain ⟨world, events, hstate⟩ := h s
  rw [hstate]
  simp only [terminate, State.withOutside, Journal.noteAll_createdAt]
  rfl

end Looks

/-! ## Functions and names -/

/-- A step that changes nothing. -/
def Still (m : Run σ α) : Prop := ∀ s, (m s).2 = s

namespace Still

theorem eq_of {m : Run σ α} (h : Still m) {s s' : State σ} {answer : Except Termination α}
    (hm : m s = (answer, s')) : s' = s := by
  have hs := h s
  rwa [hm] at hs

theorem pure (a : α) : Still (Pure.pure a : Run σ α) := fun _ => rfl

theorem fail (halt : Halt) (loc : Location) : Still (Run.fail halt loc : Run σ α) := fun _ => rfl

theorem bind {m : Run σ α} {k : α → Run σ β} (hm : Still m) (hk : ∀ a, Still (k a)) :
    Still (m >>= k) := by
  intro s
  have hfirst := hm s
  cases hs : m s with
  | mk answer s₁ =>
    rw [hs] at hfirst
    cases answer with
    | error x =>
      rw [bind_error hs]
      exact hfirst
    | ok a =>
      rw [bind_ok hs]
      exact (hk a s₁).trans hfirst

theorem loadParams (function : String) (loc : Location) (params : List FunctionParam) :
    Still (Run.loadParams function loc params : Run σ (List CallParam)) := by
  induction params with
  | nil => exact .pure _
  | cons param rest ih =>
    refine .bind ?_ fun _ => .bind ih fun _ => .pure _
    unfold Run.loadParam
    cases param.default with
    | none => exact .pure _
    | some json =>
      dsimp only
      cases Value.ofJson? param.type json with
      | none => exact .fail _ loc
      | some value => exact .pure _

theorem loadFound (loc : Location) (found : Option StoredFunction) :
    Still (Run.loadFound loc found : Run σ (Option Callee)) := by
  cases found with
  | none => exact .pure none
  | some function =>
    refine .bind ?_ fun _ => .pure _
    unfold Run.load
    cases parse function.body with
    | error e => exact fun _ => rfl
    | ok body => exact .bind (.loadParams _ loc _) fun _ => .pure _

end Still

/-- A step that changes no scope, and to which scopes with the same macros in sight are the same. -/
def Blind (m : Run σ α) : Prop :=
  ∀ s env, (∀ name, env.findMacro? name = s.env.findMacro? name) →
    m { s with env := env } = ((m s).1, { (m s).2 with env := env })

namespace Blind

theorem env_eq {m : Run σ α} (h : Blind m) (s : State σ) : (m s).2.env = s.env :=
  congrArg (fun result => result.2.env) (h s s.env fun _ => rfl)

theorem pure (a : α) : Blind (Pure.pure a : Run σ α) := fun _ _ _ => rfl

theorem bind {m : Run σ α} {k : α → Run σ β} (hm : Blind m) (hk : ∀ a, Blind (k a)) :
    Blind (m >>= k) := by
  intro s env henv
  have henv' := hm.env_eq s
  have hother := hm s env henv
  cases hs : m s with
  | mk answer s' =>
    rw [hs] at henv' hother
    cases answer with
    | error x => rw [bind_error hs, bind_error hother]
    | ok a =>
      rw [bind_ok hs, bind_ok hother]
      exact hk a s' env fun name => by rw [henv name, henv']

/-- A part of the state that is no variable. -/
theorem read {f : State σ → α}
    (h : ∀ s env, (∀ name, env.findMacro? name = s.env.findMacro? name) →
      f { s with env := env } = f s) : Blind (Run.read f) := by
  intro s env henv
  have hsame := h s env henv
  simp only [Run.read, hsame]

theorem modify {f : State σ → State σ}
    (h : ∀ s env, f { s with env := env } = { f s with env := env }) : Blind (Run.modify f) := by
  intro s env _
  have hsame := h s env
  simp only [Run.modify, hsame]

theorem ask (act : Act σ α) : Blind (Run.ask act) := fun _ _ _ => rfl

theorem failWith (halt : Halt) (loc : Location) (notes : List String) :
    Blind (Run.failWith halt loc notes : Run σ α) := fun _ _ _ => rfl

theorem fail (halt : Halt) (loc : Location) : Blind (Run.fail halt loc : Run σ α) :=
  failWith halt loc []

theorem loadParams (function : String) (loc : Location) (params : List FunctionParam) :
    Blind (Run.loadParams function loc params : Run σ (List CallParam)) := by
  induction params with
  | nil => exact .pure _
  | cons param rest ih =>
    refine .bind ?_ fun _ => .bind ih fun _ => .pure _
    unfold Run.loadParam
    cases param.default with
    | none => exact .pure _
    | some json =>
      dsimp only
      cases Value.ofJson? param.type json with
      | none => exact .fail _ loc
      | some value => exact .pure _

theorem loadFound (loc : Location) (found : Option StoredFunction) :
    Blind (Run.loadFound loc found : Run σ (Option Callee)) := by
  cases found with
  | none => exact .pure none
  | some function =>
    refine .bind ?_ fun _ => .pure _
    unfold Run.load
    cases parse function.body with
    | error e => exact fun _ _ _ => rfl
    | ok body => exact .bind (.loadParams _ loc _) fun _ => .pure _

variable (setup : Setup σ)

theorem trace (loc : Location) (kind : TraceKind) : Blind (Run.trace setup loc kind) := by
  intro s env _
  rw [trace_eq, trace_eq]
  rfl

theorem fetch (name : String) (loc : Location) : Blind (Run.fetch setup name loc) := by
  refine .bind (.read fun _ _ _ => rfl) fun known => ?_
  cases known with
  | some callee => exact .pure callee
  | none =>
    refine .bind (.ask _) fun answer => ?_
    cases answer with
    | error e => exact .fail _ loc
    | ok found =>
      exact .bind (.loadFound loc found) fun callee =>
        .bind (.modify fun _ _ => rfl) fun _ => .pure callee

theorem isKnown (declared : List String) (call : Call) :
    Blind (Run.isKnown setup declared call) := by
  unfold Run.isKnown
  split
  · exact .pure _
  · refine .bind (.read fun s env henv => henv call.name) fun found => ?_
    split
    · exact .pure _
    · exact .bind (.fetch setup _ _) fun _ => .pure _

theorem checkCalls (declared : List String) (calls : List Call) :
    Blind (Run.checkCalls setup declared calls) := by
  induction calls with
  | nil => exact .pure ()
  | cons call rest ih =>
    refine .bind (.isKnown setup declared call) fun known => ?_
    cases known with
    | true => exact ih
    | false => exact .fail _ _

theorem validateOnce (callee : Callee) : Blind (Run.validateOnce setup callee) := by
  unfold Run.validateOnce
  cases callee.stored with
  | none => exact .pure ()
  | some name =>
    refine .bind (.read fun _ _ _ => rfl) fun done => ?_
    cases done with
    | true => exact .pure ()
    | false => exact .bind (.checkCalls setup _ _) fun _ => .modify fun _ _ => rfl

end Blind

/-! ## Commands and loops -/

/-- A step that changes no scope and learns of no function. -/
def Aside (m : Run σ α) : Prop :=
  ∀ s, (m s).2.env = s.env ∧ (m s).2.functions = s.functions ∧ (m s).2.validated = s.validated

namespace Aside

theorem of_outward {m : Run σ α} (h : Outward m) : Aside m := by
  intro s
  obtain ⟨o, ho⟩ := h s
  rw [ho]
  exact ⟨rfl, rfl, rfl⟩

theorem pure (a : α) : Aside (Pure.pure a : Run σ α) := fun _ => ⟨rfl, rfl, rfl⟩

theorem bind {m : Run σ α} {k : α → Run σ β} (hm : Aside m) (hk : ∀ a, Aside (k a)) :
    Aside (m >>= k) := by
  intro s
  obtain ⟨henv, hfunctions, hvalidated⟩ := hm s
  cases hs : m s with
  | mk answer s₁ =>
    rw [hs] at henv hfunctions hvalidated
    cases answer with
    | error x =>
      rw [bind_error hs]
      exact ⟨henv, hfunctions, hvalidated⟩
    | ok a =>
      rw [bind_ok hs]
      obtain ⟨henv', hfunctions', hvalidated'⟩ := hk a s₁
      exact ⟨henv'.trans henv, hfunctions'.trans hfunctions, hvalidated'.trans hvalidated⟩

theorem read (f : State σ → α) : Aside (Run.read f) := fun _ => ⟨rfl, rfl, rfl⟩

theorem ask (act : Act σ α) : Aside (Run.ask act) := fun _ => ⟨rfl, rfl, rfl⟩

theorem fail (halt : Halt) (loc : Location) : Aside (Run.fail halt loc : Run σ α) :=
  fun _ => ⟨rfl, rfl, rfl⟩

variable (setup : Setup σ)

theorem trace (loc : Location) (kind : TraceKind) : Aside (Run.trace setup loc kind) := by
  intro s
  rw [trace_eq]
  exact ⟨rfl, rfl, rfl⟩

theorem eval (e : Expr) : Aside (Run.eval setup e) :=
  of_outward (.of_follows fun _ hR => (SameSight.refl setup).eval hR e)

theorem evalInt (what : String) (e : Expr) : Aside (Run.evalInt setup what e) :=
  of_outward (.of_follows fun _ hR => (SameSight.refl setup).evalInt hR what e)

theorem evalCondition (e : Expr) : Aside (Run.evalCondition setup e) :=
  of_outward (.of_follows fun _ hR => (SameSight.refl setup).evalCondition hR e)

theorem bindArgs (callee : String) (loc : Location) (params : List CallParam)
    (args : List (Arg Expr)) : Aside (Run.bindArgs setup callee loc params args) :=
  of_outward (.of_follows fun _ hR => (SameSight.refl setup).bindArgs hR callee loc params args)

theorem checkCancelled (loc : Location) : Aside (Run.checkCancelled setup loc) := by
  refine .bind (.ask _) fun cancelled => ?_
  cases cancelled with
  | true => exact .fail _ loc
  | false => exact .pure ()

theorem checkLocated (statement : Statement) : Aside (Run.checkLocated setup statement) := by
  unfold Run.checkLocated
  cases statement.loc? with
  | none => exact .pure ()
  | some loc => exact .checkCancelled setup loc

theorem dispatch (call : CommandCall) (handler : CommandHandler σ) :
    Aside (Run.dispatch setup call handler) :=
  of_outward (.of_follows fun _ hR =>
    (SameCommand.refl setup call handler).dispatch (SameSight.refl setup) hR)

theorem beginIteration (loc : Location) (iteration : Nat) (binding : Option (String × Int64)) :
    Aside (Run.beginIteration setup loc iteration binding) := by
  refine .bind (.checkCancelled setup loc) fun _ =>
    .bind ?_ fun _ => .bind (.read _) fun begun => ?_
  · exact fun _ => ⟨rfl, rfl, rfl⟩
  · split
    · exact .fail _ loc
    · exact .trace setup loc _

end Aside

end Run

end BlockScript
