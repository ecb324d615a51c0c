import BlockScript.Proofs.Run.Commands
import BlockScript.Proofs.Run.Effects
import BlockScript.Proofs.Run.Halting
import BlockScript.Proofs.Run.Lockstep
import BlockScript.Proofs.Scope.Frames

/-!
# Calls and their callers

A call leaves the scopes of its caller as they were. Two calls that differ in the local variables of
the caller alone, and that bind the same values, are the same call: their journals may differ in
what the evaluation of the arguments has published, and in nothing that comes later.
-/
namespace BlockScript
set_option autoImplicit false

/-- States that are the same but for the variables of local scopes. -/
structure State.SameButLocals {σ : Type} (s t : State σ) : Prop where
  others : { s with env := t.env } = t
  globals : s.env.globals = t.env.globals
  outlines : s.env.locals.map Scope.outline = t.env.locals.map Scope.outline

theorem State.SameButLocals.refl {σ : Type} (s : State σ) : s.SameButLocals s := ⟨rfl, rfl, rfl⟩

namespace Run

variable {σ α : Type}

/-! ## Journals with different beginnings -/

/-- Outsides that are the same but for what two journals held before. -/
structure Beside (journal journal' : Journal) (o p : Outside σ) : Prop where
  others : { o with journal := p.journal } = p
  noted : ∃ events, o.journal = journal.noteAll events ∧ p.journal = journal'.noteAll events

namespace Beside

variable {journal journal' : Journal} {o p : Outside σ}

theorem note (h : Beside journal journal' o p) (event : Event) {o' p' : Outside σ}
    (ho : o'.journal = o.journal.note event) (hp : p'.journal = p.journal.note event)
    (hothers : { o' with journal := p'.journal } = p') : Beside journal journal' o' p' := by
  obtain ⟨events, hevents, hevents'⟩ := h.noted
  refine ⟨hothers, events ++ [event], ?_, ?_⟩
  · rw [Journal.noteAll_concat, ← hevents, ho]
  · rw [Journal.noteAll_concat, ← hevents', hp]

theorem createdAt (hstamp : journal.createdAt = journal'.createdAt)
    (h : Beside journal journal' o p) : o.journal.createdAt = p.journal.createdAt := by
  obtain ⟨events, hevents, hevents'⟩ := h.noted
  rw [hevents, hevents', Journal.noteAll_createdAt, Journal.noteAll_createdAt, hstamp]

theorem asks (act : Act σ α) : AsksAlike (Beside journal journal') act act where
  answer := fun o p h => by
    rw [← h.others]
  kept := fun o p h => by
    obtain ⟨hothers, hnoted⟩ := h
    refine ⟨?_, hnoted⟩
    rw [← hothers]

theorem traced (hstamp : journal.createdAt = journal'.createdAt) (h : Beside journal journal' o p)
    (setup : Setup σ) (loc : Location) (kind : TraceKind) :
    Beside journal journal' (o.traced setup loc kind) (p.traced setup loc kind) := by
  have hcreated := h.createdAt hstamp
  unfold Outside.traced
  split
  · refine h.note (.trace ⟨o.journal.createdAt, loc, kind⟩) rfl ?_ ?_
    · rw [hcreated]
      rfl
    · rw [← h.others]
  · exact h

theorem concluded (h : Beside journal journal' o p) (op : String) (result : StepResult)
    (world : σ) :
    Beside journal journal' (o.concluded op result world) (p.concluded op result world) := by
  refine h.note (.step result) rfl rfl ?_
  rw [← h.others]
  rfl

end Beside

section

variable (setup : Setup σ) {journal journal' : Journal}

theorem sameSight_beside (hstamp : journal.createdAt = journal'.createdAt) :
    SameSight setup setup (Beside journal journal') (fun _ _ _ => False) where
  actor := rfl
  ops := fun o p h => by rw [← h.others]
  lastOp := fun o p h => by rw [← h.others]
  lastOk := fun o p h => by rw [← h.others]
  stamp := fun o p h => h.createdAt hstamp
  pose := Beside.asks _
  search := fun _ _ => Beside.asks _
  waypoint := fun _ => Beside.asks _
  predicate := fun name => by
    cases setup.context.registry.predicate? name with
    | none => exact .none
    | some handler => exact .some fun _ => Beside.asks _
  told := fun loc name value o p _ h => h.traced hstamp setup loc _
  toldLastOk := fun loc o p h => by
    have hlast : o.lastOk = p.lastOk := by rw [← h.others]
    rw [hlast]
    exact h.traced hstamp setup loc _
  cutWorld := fun _ _ _ _ h => h
  cutTraced := fun _ _ _ _ _ h => h

theorem sameCommand_beside (hstamp : journal.createdAt = journal'.createdAt) (call : CommandCall)
    (handler : CommandHandler σ) :
    SameCommand setup setup (Beside journal journal') (fun _ _ _ => False) call handler
      handler where
  cancelled := Beside.asks _
  opLimit := Nat.le_refl _
  opCut := fun hlt => absurd hlt (Nat.lt_irrefl _)
  started := fun o p h => by
    have hops : o.ops = p.ops := by rw [← h.others]
    rw [hops]
    exact h.traced hstamp setup _ _
  autoScan := rfl
  needsScan := Beside.asks _
  scan := Beside.asks _
  stopOnFailure := rfl
  settles := fun o p prepared h _ => by
    have hcreated := h.createdAt hstamp
    have hops : o.ops = p.ops := by rw [← h.others]
    have hworld : o.world = p.world := by rw [← h.others]
    rw [hcreated, hops, hworld]
    exact ⟨rfl, h.concluded _ _ _⟩
  cutConcluded := fun _ _ _ _ _ h => h

theorem sameCourse_beside (hstamp : journal.createdAt = journal'.createdAt) :
    SameCourse setup setup (Beside journal journal') (fun _ _ _ => False) :=
  { sameSight_beside setup hstamp with
    cancelled := Beside.asks _
    function := fun _ => Beside.asks _
    command := fun call => by
      cases setup.context.registry.command? call.name with
      | none => exact .none
      | some handler =>
        exact .some fun _ hR =>
          (sameCommand_beside setup hstamp call handler).dispatch (sameSight_beside setup hstamp) hR
    flow := fun loc kind o p _ h => h.traced hstamp setup loc kind
    iterationLimit := Nat.le_refl _
    iterationCut := fun hlt => absurd hlt (Nat.lt_irrefl _)
    callDepth := Nat.le_refl _
    depthCut := fun hlt => absurd hlt (Nat.lt_irrefl _) }

end

/-- What a call does once its arguments are bound. -/
def entered (setup : Setup σ) (level : Nat) (command : CommandCall) (callee : Callee)
    (bound : List (String × Value)) : Run σ Unit := do
  validateOnce setup callee
  let depth ← read (·.depth + 1)
  trace setup command.loc (.macroEntered command.name depth)
  inFrame bound (execAt setup level callee.body)

/-! ## Inside and outside of a frame -/

/-- What a frame hides on both sides, with the global scope under it, and the journals from which
the two runs go on. -/
structure Shelter where
  hidden : List Scope
  hidden' : List Scope
  outer : Bindings
  journal : Journal
  journal' : Journal
  macros : ∀ name, Env.macroIn? hidden name = Env.macroIn? hidden' name
  stamps : journal.createdAt = journal'.createdAt

namespace Shelter

/-- States with the same counters, whose outsides differ in the beginnings of the journals. -/
structure Level (shelter : Shelter) (s t : State σ) : Prop where
  outside : Beside shelter.journal shelter.journal' s.outside t.outside
  iterations : s.iterations = t.iterations
  depth : s.depth = t.depth
  functions : s.functions = t.functions
  validated : s.validated = t.validated

/-- States with so many scopes open above the frame. -/
structure Inside (shelter : Shelter) (n : Nat) (s t : State σ) : Prop extends
    shelter.Level s t where
  env : Env.Sheltered shelter.hidden shelter.hidden' shelter.outer n s.env t.env

/-- States in which the frame is not open. -/
structure Around (shelter : Shelter) (s t : State σ) : Prop extends shelter.Level s t where
  locals : s.env.locals = shelter.hidden
  locals' : t.env.locals = shelter.hidden'
  globals : s.env.globals = t.env.globals
  names : s.env.globals.vars.keys = shelter.outer.vars.keys
  macros : s.env.globals.macros = shelter.outer.macros

variable {shelter : Shelter} {n : Nat} {s t : State σ}

theorem tracks (shelter : Shelter) :
    Tracks (shelter.Inside : Nat → State σ → State σ → Prop)
      (Beside shelter.journal shelter.journal') where
  sees := fun _ =>
    { outside := fun h => h.outside
      vars := fun h name => h.env.get? name
      update := fun h ho => { h with outside := ho } }
  macros := fun h name => h.env.findMacro? shelter.macros name
  iterations := fun h => h.iterations
  depth := fun h => h.depth
  functions := fun h => h.functions
  validated := fun h => h.validated
  count := fun h => { h with iterations := congrArg (· + 1) h.iterations }
  learn := fun h name callee => { h with functions := congrArg (·.insert name callee) h.functions }
  vouch := fun h name => { h with validated := congrArg (name :: ·) h.validated }
  define := fun h macros => { h with env := h.env.defineAll macros }
  declare := fun h name value => { h with env := h.env.declare name value }
  assign := fun h name value =>
    optionRel_mono (h.env.assign? name value) fun _ _ henv => { h with env := henv }
  push := fun h => { h with env := h.env.opened _ }
  pop := fun h => { h with env := h.env.pop }
  enter := fun h bound =>
    { h with env := (h.env.opened _).declareAll bound, depth := congrArg (· + 1) h.depth }
  leave := fun h => { h with env := h.env.pop, depth := congrArg (· - 1) h.depth }

theorem Around.findMacro? (h : shelter.Around s t) (name : String) :
    s.env.findMacro? name = t.env.findMacro? name := by
  refine Env.findMacro?_congr ?_ h.globals
  rw [h.locals, h.locals', shelter.macros]

/-- A step that reads no variable goes alike on both sides. -/
theorem follows_blind {m : Run σ α} (hblind : Blind m)
    (halike : Follows (Alike (Beside shelter.journal shelter.journal')) (fun _ _ _ => False) m m) :
    Follows shelter.Around (fun _ _ _ => False) m m := by
  refine ⟨fun s t hst => ?_, fun _ _ _ h => h⟩
  have hother := hblind t s.env hst.findMacro?
  have henv := hblind.env_eq s
  have henv' := hblind.env_eq t
  have hagree := halike.agree s { t with env := s.env }
    ⟨hst.outside, rfl, hst.iterations, hst.depth, hst.functions, hst.validated⟩
  rw [hother] at hagree
  obtain ⟨hanswer, h⟩ := hagree.uncut
  refine .of_eq hanswer ?_
  refine ⟨⟨h.outside, h.iterations, h.depth, h.functions, h.validated⟩, ?_, ?_, ?_, ?_, ?_⟩
  · rw [henv, hst.locals]
  · rw [henv', hst.locals']
  · rw [henv, henv', hst.globals]
  · rw [henv, hst.names]
  · rw [henv, hst.macros]

theorem Around.pushFrame (h : shelter.Around s t) :
    Env.Sheltered shelter.hidden shelter.hidden' shelter.outer 0 s.env.pushFrame
      t.env.pushFrame where
  levels := by
    refine ⟨[], ⟨Bindings.empty, true⟩, rfl, rfl, ?_, ?_⟩
    · exact congrArg (_ :: ·) h.locals
    · exact congrArg (_ :: ·) h.locals'
  globals := h.globals
  names := h.names
  macros := h.macros

/-- A frame is opened on both sides, something is run in it, and it is closed. -/
theorem follows_inFrame (bound : List (String × Value)) {m : Run σ α}
    (hm : Follows (shelter.Inside 0) (fun _ _ _ => False) m m) :
    Follows shelter.Around (fun _ _ _ => False) (Run.inFrame bound m) (Run.inFrame bound m) := by
  refine ⟨fun s t hst => ?_, fun _ _ _ h => h⟩
  let open' (u : State σ) : State σ :=
    { u with
      env := bound.foldl (fun env binding => env.declare binding.1 binding.2) u.env.pushFrame
      depth := u.depth + 1 }
  have hopen : shelter.Inside 0 (open' s) (open' t) :=
    { hst with env := hst.pushFrame.declareAll bound, depth := congrArg (· + 1) hst.depth }
  obtain ⟨hanswer, h⟩ := (hm.agree _ _ hopen).uncut
  obtain ⟨hlocals, hlocals'⟩ := h.env.pop_frame
  exact .of_eq hanswer
    { h with
      depth := congrArg (· - 1) h.depth
      locals := hlocals
      locals' := hlocals'
      globals := h.env.globals
      names := h.env.names
      macros := h.env.macros }

/-- What a call does once its arguments are bound. -/
theorem follows_entered (setup : Setup σ) (level : Nat) (command : CommandCall) (callee : Callee)
    (bound : List (String × Value)) :
    Follows shelter.Around (fun _ _ _ => False) (entered setup level command callee bound)
      (entered setup level command callee bound) := by
  have hcourse := sameCourse_beside setup shelter.stamps
  have hbody := hcourse.execAt (tracks shelter) level callee.body 0
  rw [Nat.sub_self, Nat.add_zero] at hbody
  refine .bind (follows_blind (.validateOnce setup callee)
      (hcourse.validateOnce ((Alike.tracks _).recalls 0) callee)) fun _ =>
    .bind (.read fun s t h => congrArg (· + 1) h.depth) fun depth =>
      .bind (follows_blind (.trace setup _ _)
        (hcourse.flowTrace (n := 0) (Alike.tracks _) _ rfl)) fun _ => ?_
  exact follows_inFrame bound hbody

end Shelter

/-! ## Binding -/

/-- States from which a run would be terminated in the same words. -/
def StopAlike (s t : State σ) : Prop :=
  ∀ halt loc notes, terminate halt loc notes s = terminate halt loc notes t

theorem StopAlike.after {m : Run σ α} (hm : Looks m) {s t : State σ} (h : StopAlike s t) :
    StopAlike (m s).2 (m t).2 := by
  intro halt loc notes
  rw [hm.terminate_eq, hm.terminate_eq, h]

theorem ofBinding_answer {s t : State σ} (h : StopAlike s t) (callee : String) (loc : Location)
    (answer : Except BindError α) :
    (ofBinding callee loc answer s).1 = (ofBinding callee loc answer t).1 := by
  cases answer with
  | ok a => rfl
  | error e => exact congrArg Except.error (h _ _ _)

variable (setup : Setup σ)

/-- The same values are placed in the same way. -/
theorem placeArgs_answer (callee : String) (loc : Location) (given : Nat) (binding : Binding)
    {args : List (Arg Expr)} {values : List (Option String × Value)} {s t s' t' : State σ}
    (hst : StopAlike s t) (hs : evalArgs setup args s = (.ok values, s'))
    (ht : evalArgs setup args t = (.ok values, t')) :
    (placeArgs setup callee loc given binding args s).1 =
      (placeArgs setup callee loc given binding args t).1 := by
  induction args generalizing binding values s t with
  | nil => rfl
  | cons arg rest ih =>
    obtain ⟨value, others, s₁, hvalue, hothers, rfl⟩ := evalArgs_cons_eq_ok hs
    obtain ⟨_, _, t₁, hvalue', hothers', hsame⟩ := evalArgs_cons_eq_ok ht
    cases hsame
    have hst₁ : StopAlike s₁ t₁ := by
      have h := hst.after (Looks.eval setup arg.value)
      rwa [hvalue, hvalue'] at h
    rw [placeArgs, bind_ok hvalue, bind_ok hvalue']
    cases binding.place given arg.key value with
    | error error => exact congrArg Except.error (hst₁ _ _ _)
    | ok binding => exact ih binding hst₁ hothers hothers'

theorem bindArgs_answer (callee : String) (loc : Location) (params : List CallParam)
    {args : List (Arg Expr)} {values : List (Option String × Value)} {s t : State σ}
    (hst : StopAlike s t) (hs : (evalArgs setup args s).1 = .ok values)
    (ht : (evalArgs setup args t).1 = .ok values) :
    (bindArgs setup callee loc params args s).1 = (bindArgs setup callee loc params args t).1 := by
  have hplaced := placeArgs_answer setup callee loc args.length (Binding.ofParams params) hst
    (Prod.ext hs rfl) (Prod.ext ht rfl)
  have hafter := hst.after
    (Looks.placeArgs setup callee loc args.length (Binding.ofParams params) args)
  unfold bindArgs
  cases hfirst : placeArgs setup callee loc args.length (Binding.ofParams params) args s with
  | mk answer s₁ =>
    cases hsecond : placeArgs setup callee loc args.length (Binding.ofParams params) args t with
    | mk answer' t₁ =>
      rw [hfirst, hsecond] at hplaced hafter
      obtain rfl : answer = answer' := hplaced
      cases answer with
      | error x => rw [bind_error hfirst, bind_error hsecond]
      | ok binding =>
        rw [bind_ok hfirst, bind_ok hsecond]
        exact ofBinding_answer hafter callee loc _

/-- The state in which the arguments of a call have been bound; a call that is refused binds
nothing. -/
def bindingState (command : CommandCall) (callee : Callee) (s : State σ) : Nat → State σ
  | 0 => s
  | _ + 1 => (bindArgs setup command.name command.loc callee.params command.args s).2

theorem bindingState_eq (command : CommandCall) (callee : Callee) (s : State σ) (level : Nat) :
    ∃ world events, bindingState setup command callee s level =
      s.withOutside { s.outside with world := world, journal := s.journal.noteAll events } := by
  cases level with
  | zero => exact ⟨s.world, [], rfl⟩
  | succ level => exact Looks.bindArgs setup _ _ _ _ s

theorem bindingState_createdAt (command : CommandCall) (callee : Callee) (s : State σ)
    (level : Nat) :
    (bindingState setup command callee s level).journal.createdAt = s.journal.createdAt := by
  obtain ⟨world, events, hstate⟩ := bindingState_eq setup command callee s level
  rw [hstate]
  exact Journal.noteAll_createdAt _ _

/-! ## Calls -/

section

variable {s t : State σ}

theorem stopAlike_of_sameButLocals (h : s.SameButLocals t) : StopAlike s t := by
  intro halt loc notes
  rw [← h.others]
  rfl

variable (command : CommandCall) (callee : Callee) (level : Nat)

/-- What the frame of a call hides in two states. -/
def Shelter.ofCall (h : s.SameButLocals t) : Shelter where
  hidden := s.env.locals
  hidden' := t.env.locals
  outer := s.env.globals
  journal := (bindingState setup command callee s level).journal
  journal' := (bindingState setup command callee t level).journal
  macros := Env.macroIn?_of_outline h.outlines
  stamps := by
    have hjournal : s.journal = t.journal := by rw [← h.others]
    rw [bindingState_createdAt, bindingState_createdAt, hjournal]

/-- Around a call the two states still differ in local variables and journals alone. -/
theorem Shelter.Around.sameButLocals {h : s.SameButLocals t} {s' t' : State σ}
    (haround : (Shelter.ofCall setup command callee level h).Around s' t') :
    { s' with journal := t'.journal }.SameButLocals t' := by
  refine ⟨?_, haround.globals, ?_⟩
  · obtain ⟨⟨hothers, -⟩, hiterations, hdepth, hfunctions, hvalidated⟩ := haround.toLevel
    cases s'
    cases t'
    simp_all [State.outside]
  · rw [haround.locals, haround.locals']
    exact h.outlines

theorem around_of_bound (h : s.SameButLocals t)
    (hworld : (bindingState setup command callee s level).world =
      (bindingState setup command callee t level).world) :
    (Shelter.ofCall setup command callee level h).Around
      (bindingState setup command callee s level) (bindingState setup command callee t level) := by
  obtain ⟨env, rfl⟩ : ∃ env, t = { s with env := env } := ⟨t.env, h.others.symm⟩
  obtain ⟨world, events, hs⟩ := bindingState_eq setup command callee s level
  obtain ⟨world', events', ht⟩ := bindingState_eq setup command callee { s with env := env } level
  rw [hs, ht] at hworld
  obtain rfl : world = world' := hworld
  rw [hs, ht]
  refine ⟨⟨⟨rfl, [], ?_, ?_⟩, rfl, rfl, rfl, rfl⟩, rfl, rfl, h.globals, rfl, rfl⟩
  · exact congrArg State.journal hs.symm
  · exact congrArg State.journal ht.symm

/-- Calls that bind the same values in the same world go alike, with all that is around them. -/
theorem calls_agree (h : s.SameButLocals t)
    (hanswer : (bindArgs setup command.name command.loc callee.params command.args s).1 =
      (bindArgs setup command.name command.loc callee.params command.args t).1)
    (hworld : (bindingState setup command callee s level).world =
      (bindingState setup command callee t level).world) :
    Agree (Shelter.ofCall setup command callee level h).Around (fun _ _ _ => False)
      (call setup (enterAt setup level) command callee s)
      (call setup (enterAt setup level) command callee t) := by
  have haround := around_of_bound setup command callee level h hworld
  cases level with
  | zero => exact .of_eq (congrArg Except.error (stopAlike_of_sameButLocals h _ _ _)) haround
  | succ level =>
    have hentered := fun bound =>
      (Shelter.follows_entered setup level command callee bound).agree _ _ haround
    dsimp only [bindingState] at haround hentered
    change Agree _ _ ((bindArgs setup _ _ _ _ >>= entered setup level command callee) s)
      ((bindArgs setup _ _ _ _ >>= entered setup level command callee) t)
    cases hs : bindArgs setup command.name command.loc callee.params command.args s with
    | mk answer s₁ =>
      cases ht : bindArgs setup command.name command.loc callee.params command.args t with
      | mk answer' t₁ =>
        rw [hs, ht] at hanswer haround hentered
        obtain rfl : answer = answer' := hanswer
        cases answer with
        | error x =>
          rw [bind_error hs, bind_error ht]
          exact .both haround
        | ok bound =>
          rw [bind_ok hs, bind_ok ht]
          exact hentered bound

/-- Calls are isolated from their callers. Whether a call ends well or not, it leaves the local
scopes as they were, the names and the macros of the global scope, and the depth of calls. And if
two states differ in local variables alone, the arguments have the same values in both, and the
world is the same once they are bound, then both calls end alike, in states that differ in local
variables and journals alone, and from the binding on both journals have noted the same events. -/
theorem calls_isolated (s : State σ) :
    (let after := (call setup (enterAt setup level) command callee s).2
     after.env.locals = s.env.locals ∧
       after.env.globals.vars.keys = s.env.globals.vars.keys ∧
       after.env.globals.macros = s.env.globals.macros ∧
       after.depth = s.depth) ∧
    ∀ t values, s.SameButLocals t →
      (evalArgs setup command.args s).1 = .ok values →
      (evalArgs setup command.args t).1 = .ok values →
      (bindingState setup command callee s level).world =
        (bindingState setup command callee t level).world →
      let first := call setup (enterAt setup level) command callee s
      let second := call setup (enterAt setup level) command callee t
      first.1 = second.1 ∧
        { first.2 with journal := second.2.journal }.SameButLocals second.2 ∧
        ∃ events,
          first.2.journal = (bindingState setup command callee s level).journal.noteAll events ∧
          second.2.journal =
            (bindingState setup command callee t level).journal.noteAll events := by
  constructor
  · obtain ⟨-, haround⟩ := (calls_agree setup command callee level (.refl s) rfl rfl).uncut
    have hsteady := Steady.call setup (enterAt_steady setup level) command callee s
    exact ⟨haround.locals, haround.names, haround.macros, hsteady.2⟩
  · intro t values h hs ht hworld
    have hbound := bindArgs_answer setup command.name command.loc callee.params
      (stopAlike_of_sameButLocals h) hs ht
    obtain ⟨hanswer, haround⟩ := (calls_agree setup command callee level h hbound hworld).uncut
    exact ⟨hanswer, haround.sameButLocals, haround.outside.noted⟩

end

/-- A macro that puts its argument into a global variable is called with a local variable, in two
states that differ in another one. -/
theorem calls_isolated_from_caller :
    let context : Context Unit :=
      { registry := ⟨Dict.empty, Dict.empty⟩
        probe :=
          { pose := fun world => (.error (.unavailable ""), world)
            blockAt := fun _ world => (.ok none, world)
            findBlock := fun _ _ _ world => (.ok none, world) } }
    let setup : Setup Unit := ⟨context, {}⟩
    let callee : Callee := Callee.ofMacro
      { name := "keep"
        params := [⟨"amount", .int⟩]
        body := ⟨[.assign "total" (.ident "amount" default) default], default⟩
        loc := default }
    let command : CommandCall := ⟨"keep", [⟨none, .ident "x" default⟩], default⟩
    let state (y : Int64) : State Unit :=
      { State.initial default () with
        env := ⟨[⟨⟨Dict.empty.insert "x" (.int 2), Dict.empty⟩, false⟩,
            ⟨⟨Dict.empty.insert "y" (.int y), Dict.empty⟩, false⟩],
          ⟨Dict.empty.insert "total" (.int 0), Dict.empty⟩⟩ }
    let after (y : Int64) : State Unit :=
      (call setup (enterAt setup 1) command callee (state y)).2
    (after 5).env.locals = (state 5).env.locals ∧
      (after 5).env.globals = (after 7).env.globals ∧
      (after 5).env.get? "total" = some (.int 2) := by
  intro context setup callee command state after
  obtain ⟨⟨hlocals, -⟩, hsame⟩ := calls_isolated setup command callee 1 (state 5)
  have hstates : (state 5).SameButLocals (state 7) := ⟨rfl, rfl, rfl⟩
  obtain ⟨-, hafter, -⟩ := hsame (state 7) [(none, .int 2)] hstates rfl rfl
    (Subsingleton.elim _ _)
  exact ⟨hlocals, hafter.globals, rfl⟩

/-- Equal values alone are not enough. Where the left side of a conjunction is a local variable, it
decides whether the right side looks for a block; here the second look fails, and only the call that
has looked before is terminated by it. -/
theorem calls_of_equal_values_differ :
    let context : Context Nat :=
      { registry := ⟨Dict.empty, Dict.empty⟩
        probe :=
          { pose := fun looks =>
              (if looks = 0 then .ok ⟨0, ⟨0, 0, 0⟩⟩ else .error (.connectionLost "pose link down"),
                looks + 1)
            blockAt := fun _ looks => (.ok none, looks)
            findBlock := fun _ _ _ looks => (.ok none, looks) } }
    let setup : Setup Nat := ⟨context, {}⟩
    let obsidian : Expr := .query [("name", .text "obsidian" default)] default
    let callee : Callee := Callee.ofMacro
      { name := "m"
        params := [⟨"near", .bool⟩]
        body := ⟨[.assert (.unary .not obsidian default) none default], default⟩
        loc := default }
    let command : CommandCall :=
      ⟨"m", [⟨none, .binary .and (.ident "x" default) obsidian⟩], default⟩
    let state (x : Bool) : State Nat :=
      { State.initial default 0 with
        env := ⟨[⟨⟨Dict.empty.insert "x" (.bool x), Dict.empty⟩, false⟩], Bindings.empty⟩ }
    let answer (x : Bool) : Except Termination Unit :=
      (call setup (enterAt setup 1) command callee (state x)).1
    (state true).SameButLocals (state false) ∧
      (∀ x, (evalArgs setup command.args (state x)).1 = .ok [(none, .bool false)]) ∧
      answer false = .ok () ∧
      answer true = .error (terminate (.probe (.connectionLost "pose link down")) default []
        (state true)) := by
  intro context setup obsidian callee command state answer
  refine ⟨⟨rfl, rfl, rfl⟩, fun x => ?_, ?_, ?_⟩
  · cases x
    · rfl
    · rfl
  · rfl
  · rfl

end Run

end BlockScript
