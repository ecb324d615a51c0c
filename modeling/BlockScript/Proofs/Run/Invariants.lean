import BlockScript.Proofs.Run.Effects
import BlockScript.Proofs.Run.Halting
import BlockScript.Proofs.Run.Machinery

/-!
# Invariants of a run

A property of what a run does to its world and its books, from one step of the machine to whole
runs. The property is tied to the moments between the steps; a command may give it up on its way,
as long as it is restored when the command has its result. Where a command ends the run halfway, a
second property tells what is left behind.
-/
namespace BlockScript
set_option autoImplicit false

/-- A trace that enters a call tells a depth from one to the limit. -/
def TraceKind.Within (limit : Nat) : TraceKind → Prop
  | macroEntered _ depth => 1 ≤ depth ∧ depth ≤ limit
  | _ => True

/-- Only the trace that enters a call tells a depth. -/
theorem TraceKind.Within.of_not_entered {limit : Nat} {kind : TraceKind}
    (h : ∀ name depth, kind ≠ .macroEntered name depth) : kind.Within limit := by
  cases kind with
  | macroEntered name depth => exact absurd rfl (h name depth)
  | _ => trivial

/-- The outside after the run has asked whether it is cancelled. -/
def Outside.polled {σ : Type} (setup : Setup σ) (o : Outside σ) : Outside σ :=
  { o with world := (setup.context.cancelled o.world).2 }

namespace Run

variable {σ α β : Type}

/-- What holds however a step ends, holds of the state after it. -/
theorem Ends.state {P : State σ → Prop} {m : Run σ α} {s : State σ}
    (h : Ends m s (fun _ s' => P s') fun _ s' => P s' ∨ False) : P (m s).2 := by
  cases hs : m s with
  | mk answer s' =>
    cases answer with
    | ok a => exact h.ok a s' hs
    | error x => exact (h.error x s' hs).resolve_right id

/-- A step that keeps a property, or that terminates the run in one of the given ways. -/
def Keeping (Inv : Outside σ → Prop) (End : Termination → Outside σ → Prop) (m : Run σ α) : Prop :=
  ∀ s, Inv s.outside →
    Ends m s (fun _ s' => Inv s'.outside) (fun x s' => Inv s'.outside ∨ End x s'.outside)

namespace Keeping

variable {Inv : Outside σ → Prop} {End : Termination → Outside σ → Prop}

theorem of_kept {m : Run σ α} (h : ∀ s, Inv s.outside → Inv (m s).2.outside) :
    Keeping Inv End m := by
  intro s hinv
  have hkept := h s hinv
  constructor
  · intro a s' hs
    rwa [hs] at hkept
  · intro x s' hs
    rw [hs] at hkept
    exact .inl hkept

theorem pure (a : α) : Keeping Inv End (Pure.pure a) := of_kept fun _ h => h

theorem read (f : State σ → α) : Keeping Inv End (Run.read f) := of_kept fun _ h => h

theorem fail (halt : Halt) (loc : Location) : Keeping Inv End (Run.fail halt loc : Run σ α) :=
  of_kept fun _ h => h

theorem still {m : Run σ α} (hm : Still m) : Keeping Inv End m := by
  apply of_kept
  intro s hinv
  rw [hm s]
  exact hinv

/-- A change of control alone. -/
theorem modify {f : State σ → State σ} (hf : ∀ s, (f s).outside = s.outside) :
    Keeping Inv End (Run.modify f) := by
  apply of_kept
  intro s hinv
  show Inv (f s).outside
  rwa [hf s]

theorem ask {act : Act σ α} (hact : Harmless Inv act) : Keeping Inv End (Run.ask act) := by
  apply of_kept
  intro s hinv
  rw [ask_eq]
  exact hact s.outside hinv

theorem trace {setup : Setup σ} {loc : Location} {kind : TraceKind}
    (h : ∀ o, Inv o → Inv (o.traced setup loc kind)) :
    Keeping Inv End (Run.trace setup loc kind) := by
  apply of_kept
  intro s hinv
  rw [trace_eq]
  exact h s.outside hinv

theorem bind {m : Run σ α} {k : α → Run σ β} (hm : Keeping Inv End m)
    (hk : ∀ a, Keeping Inv End (k a)) : Keeping Inv End (m >>= k) := by
  intro s hinv
  apply (hm s hinv).bind
  intro a s' _ hinv'
  exact hk a s' hinv'

/-- Whatever follows itself wherever a setup sees the same. -/
theorem of_sight {setup : Setup σ} (h : Sighted setup Inv) {m : Run σ α}
    (hm : ∀ (J : Outside σ → Outside σ → Prop)
      (Cut : Termination → Outside σ → Outside σ → Prop) (R : State σ → State σ → Prop),
      SameSight setup setup J Cut → Sees R J → Follows R Cut m m) : Keeping Inv End m := by
  apply of_kept
  intro s hinv
  let R : State σ → State σ → Prop := fun u v => u = v ∧ Inv u.outside
  have hR : Sees R (fun o p => o = p ∧ Inv o) :=
    { outside := fun hsame => ⟨congrArg State.outside hsame.1, hsame.2⟩
      vars := fun hsame _ => hsame.1 ▸ rfl
      update := fun {u v o p} hsame hop => by
        obtain ⟨rfl, -⟩ := hsame
        obtain ⟨rfl, hinv⟩ := hop
        exact ⟨rfl, hinv⟩ }
  have hfollows := hm _ _ R (.keeping h) hR
  exact (hfollows.agree s s ⟨rfl, hinv⟩).uncut.2.2

end Keeping

/-! ## Commands -/

section

variable {setup : Setup σ} {Inv : Outside σ → Prop} {End : Termination → Outside σ → Prop}

theorem checkCancelled_passed {s : State σ} (h : (setup.context.cancelled s.world).1 = false)
    (loc : Location) :
    checkCancelled setup loc s = (.ok (), s.withOutside (s.outside.polled setup)) := by
  unfold checkCancelled
  rw [bind_ok (ask_eq _ s), h]
  rfl

theorem checkCancelled_stopped {s : State σ} (h : (setup.context.cancelled s.world).1 = true)
    (loc : Location) :
    checkCancelled setup loc s =
      (.error (terminate .cancelled loc [] (s.withOutside (s.outside.polled setup))),
        s.withOutside (s.outside.polled setup)) := by
  unfold checkCancelled
  rw [bind_ok (ask_eq _ s), h]
  rfl

theorem checkCancelled_keeping (h : Harmless Inv setup.context.cancelled) (loc : Location) :
    Keeping Inv End (checkCancelled setup loc) := by
  refine .bind (.ask h) fun cancelled => ?_
  cases cancelled with
  | true => exact .fail _ loc
  | false => exact .pure ()

/-- What a command does after its start and before it counts. -/
theorem gather_keeping {Busy : Outside σ → Prop} (hsight : Sighted setup Busy) (call : CommandCall)
    {handler : CommandHandler σ} (hneeds : Harmless Busy handler.needsScan)
    (hscan : Harmless Busy (setup.context.probe.scan setup.options.defaultScanRadius)) :
    Keeping Busy End (do
      let values ← evalArgs setup call.args
      autoScan setup call.loc handler
      prepare setup call.loc values) := by
  have hauto : Keeping Busy End (autoScan setup call.loc handler) := by
    unfold autoScan
    split
    · apply Keeping.bind (.ask hneeds)
      intro needed
      cases needed with
      | false => exact .pure ()
      | true =>
        apply Keeping.bind (.ask hscan)
        intro answer
        match answer with
        | .ok () => exact .pure ()
        | .error (.unavailable _) => exact .pure ()
        | .error (.connectionLost _) => exact .fail _ _
    · exact .pure ()
  apply Keeping.bind (.of_sight hsight fun _ _ _ hs hR => hs.evalArgs hR call.args)
  intro values
  apply Keeping.bind hauto
  intro _
  exact .of_sight hsight fun _ _ _ hs hR => hs.prepare hR call.loc values

theorem dispatch_stopped {s : State σ} (h : (setup.context.cancelled s.world).1 = true)
    (call : CommandCall) (handler : CommandHandler σ) :
    dispatch setup call handler s =
      (.error (terminate .cancelled call.loc [] (s.withOutside (s.outside.polled setup))),
        s.withOutside (s.outside.polled setup)) :=
  bind_error (checkCancelled_stopped h call.loc)

/-- A command that is not cancelled, stage by stage: it is `Ready` after the check and `Busy` after
its start, and the property holds again when it has its result. -/
theorem dispatch_ends (Inv Ready Busy : Outside σ → Prop) (End : Termination → Outside σ → Prop)
    {call : CommandCall} {handler : CommandHandler σ} {s : State σ}
    (hpassed : (setup.context.cancelled s.world).1 = false) (hready : Ready (s.outside.polled setup))
    (hrefused : ∀ o, Ready o → Inv o)
    (hstarted : ∀ o, Ready o → Busy (o.traced setup call.loc (.commandStarted s.ops call.name)))
    (hsight : Sighted setup Busy) (hneeds : Harmless Busy handler.needsScan)
    (hscan : Harmless Busy (setup.context.probe.scan setup.options.defaultScanRadius))
    (hfailed : ∀ x o, Busy o → Inv o ∨ End x o)
    (hconcluded : ∀ o prepared, Busy o →
      Inv (o.concluded call.name
        (settle call handler s.ops o.journal.createdAt prepared o.world).1
        (settle call handler s.ops o.journal.createdAt prepared o.world).2)) :
    Ends (dispatch setup call handler) s (fun _ s' => Inv s'.outside)
      (fun x s' => Inv s'.outside ∨ End x s'.outside) := by
  have hcheck : Ends (checkCancelled setup call.loc) s
      (fun _ s' => Ready s'.outside ∧ s'.ops = s.ops)
      (fun x s' => Inv s'.outside ∨ End x s'.outside) :=
    .of_ok (checkCancelled_passed hpassed call.loc) ⟨hready, rfl⟩
  apply hcheck.bind
  intro _ s₁ _ hready₁
  apply Ends.read_bind
  rw [hready₁.2]
  split
  · exact .fail (.inl (hrefused _ hready₁.1))
  · have harrange : Ends (arrange setup call handler s.ops) s₁ (fun _ s' => Busy s'.outside)
        (fun x s' => Inv s'.outside ∨ End x s'.outside) := by
      have hstart : Ends (trace setup call.loc (.commandStarted s.ops call.name)) s₁
          (fun _ s' => Busy s'.outside) (fun x s' => Inv s'.outside ∨ End x s'.outside) :=
        .of_ok (trace_eq setup call.loc _ s₁) (hstarted _ hready₁.1)
      have hgather : Keeping Busy End _ := gather_keeping hsight call hneeds hscan
      apply hstart.bind
      intro _ s' _ hbusy
      exact (hgather s' hbusy).imp (fun _ _ h => h) fun x t h => h.elim (hfailed x t.outside) .inr
    apply harrange.bind
    intro prepared s₂ _ hbusy
    have hinv := hconcluded s₂.outside prepared hbusy
    have hconclude := conclude_eq setup call handler s.ops prepared s₂
    constructor
    · intro _ s' hs
      rw [hconclude] at hs
      cases congrArg Prod.snd hs
      exact hinv
    · intro x s' hs
      rw [hconclude] at hs
      cases congrArg Prod.snd hs
      exact .inl hinv

/-! ## Steps of the machine -/

/-- What must hold of a setup so that every step of a run keeps a property, commands apart. -/
structure Flowing (setup : Setup σ) (Inv : Outside σ → Prop)
    (End : Termination → Outside σ → Prop) : Prop extends Sighted setup Inv where
  function : ∀ name, Harmless Inv (setup.context.function setup.options.actor name)
  flow : ∀ o loc kind, kind.isFlow = true → kind.Within setup.options.maxCallDepth → Inv o →
    Inv (o.traced setup loc kind)
  check : ∀ loc, Keeping Inv End (checkCancelled setup loc)

/-- What must hold of a setup so that every step of a run keeps a property. What single commands do
is a condition here. -/
structure Guarded (setup : Setup σ) (Inv : Outside σ → Prop)
    (End : Termination → Outside σ → Prop) : Prop extends Flowing setup Inv End where
  dispatch : ∀ (call : CommandCall) (handler : CommandHandler σ),
    setup.context.registry.command? call.name = some handler →
      Keeping Inv End (Run.dispatch setup call handler)

/-- The step of a task dispatches a command: the check of the statement has been passed, and the
name is that of a handler and of no macro. -/
structure Task.Dispatches (setup : Setup σ) (task : Task) (s₀ : State σ) (call : CommandCall)
    (handler : CommandHandler σ) (s : State σ) : Prop where
  first : ∃ rest, task = .each (.command call.name call.args call.loc :: rest)
  checked : checkCancelled setup call.loc s₀ = (.ok (), s)
  noMacro : s.env.findMacro? call.name = none
  found : setup.context.registry.command? call.name = some handler

namespace Flowing

variable (hg : Flowing setup Inv End)
include hg

theorem flowTrace (loc : Location) {kind : TraceKind} (hflow : kind.isFlow = true)
    (hwithin : kind.Within setup.options.maxCallDepth) :
    Keeping Inv End (trace setup loc kind) :=
  .trace fun o hinv => hg.flow o loc kind hflow hwithin hinv

theorem eval (e : Expr) : Keeping Inv End (Run.eval setup e) :=
  .of_sight hg.toSighted fun _ _ _ hs hR => hs.eval hR e

theorem evalCondition (e : Expr) : Keeping Inv End (Run.evalCondition setup e) :=
  .of_sight hg.toSighted fun _ _ _ hs hR => hs.evalCondition hR e

theorem bindArgs (callee : String) (loc : Location) (params : List CallParam)
    (args : List (Arg Expr)) : Keeping Inv End (Run.bindArgs setup callee loc params args) :=
  .of_sight hg.toSighted fun _ _ _ hs hR => hs.bindArgs hR callee loc params args

/-! ### Names -/

theorem fetch (name : String) (loc : Location) : Keeping Inv End (Run.fetch setup name loc) := by
  apply Keeping.bind (.read _)
  intro known
  cases known with
  | some callee => exact .pure callee
  | none =>
    apply Keeping.bind (.ask (hg.function name))
    intro answer
    cases answer with
    | error e => exact .fail _ loc
    | ok found =>
      exact .bind (.still (.loadFound loc found)) fun callee =>
        .bind (.modify fun _ => rfl) fun _ => .pure callee

theorem isKnown (declared : List String) (call : Call) :
    Keeping Inv End (Run.isKnown setup declared call) := by
  unfold Run.isKnown
  split
  · exact .pure _
  · apply Keeping.bind (.read _)
    intro found
    split
    · exact .pure _
    · exact .bind (hg.fetch _ _) fun _ => .pure _

theorem validate (statements : List Statement) :
    Keeping Inv End (Run.validate setup statements) := by
  unfold Run.validate
  induction Program.calls statements with
  | nil => exact .pure ()
  | cons call rest ih =>
    apply Keeping.bind (hg.isKnown _ call)
    intro known
    cases known with
    | true => exact ih
    | false => exact .fail _ _

theorem validateOnce (callee : Callee) : Keeping Inv End (Run.validateOnce setup callee) := by
  unfold Run.validateOnce
  cases callee.stored with
  | none => exact .pure ()
  | some name =>
    apply Keeping.bind (.read _)
    intro done
    cases done with
    | true => exact .pure ()
    | false => exact .bind (hg.validate callee.body) fun _ => .modify fun _ => rfl

omit hg in
theorem openFrame (bound : List (String × Value)) (statements : List Statement) :
    Keeping Inv End (Run.openFrame bound statements : Run σ _) :=
  .bind (.modify fun _ => rfl) fun _ => .bind (.modify fun _ => rfl) fun _ => .pure _

/-! ### Calls -/

/-- The depth that is told has been compared with the limit, and nothing has changed it since. -/
theorem openCall (command : CommandCall) (callee : Callee) :
    Keeping Inv End (Run.openCall setup command callee) := by
  intro s hinv
  apply Ends.read_bind
  split
  · exact .fail (.inl hinv)
  · next hroom =>
    apply (hg.bindArgs command.name command.loc callee.params command.args s hinv).bind
    intro bound s₁ hbound hinv₁
    have hdepth₁ : s₁.depth = s.depth := by
      have hquiet : Quiet (Run.bindArgs setup command.name command.loc callee.params command.args) :=
        (Quiet.elementary setup).bindArgs _ _ _ Pervasive.allJudged
      have hdepth := (hquiet s).2
      rwa [hbound] at hdepth
    apply (hg.validateOnce callee s₁ hinv₁).bind
    intro _ s₂ hchecked hinv₂
    have hdepth₂ : s₂.depth = s₁.depth := by
      have hdepth := (Quiet.validateOnce setup callee s₁).2
      rwa [hchecked] at hdepth
    have hwithin : (TraceKind.macroEntered command.name (s₂.depth + 1)).Within
        setup.options.maxCallDepth := by
      rw [hdepth₂, hdepth₁]
      constructor
      · omega
      · omega
    apply Ends.read_bind
    have htrace := hg.flowTrace command.loc rfl hwithin
    exact htrace.bind (fun _ => openFrame bound callee.body) s₂ hinv₂

theorem openCommand (command : CommandCall) {s : State σ} (hinv : Inv s.outside)
    (hdispatch : ∀ handler, s.env.findMacro? command.name = none →
      setup.context.registry.command? command.name = some handler →
      Ends (dispatch setup command handler) s (fun _ s' => Inv s'.outside)
        (fun x s' => Inv s'.outside ∨ End x s'.outside)) :
    Ends (Run.openCommand setup command) s (fun _ s' => Inv s'.outside)
      (fun x s' => Inv s'.outside ∨ End x s'.outside) := by
  apply Ends.read_bind
  cases hfound : s.env.findMacro? command.name with
  | some m => exact hg.openCall command _ s hinv
  | none =>
    dsimp only
    cases hhandler : setup.context.registry.command? command.name with
    | some handler => exact (hdispatch handler hfound hhandler).bind fun _ _ _ hinv' => .pure hinv'
    | none =>
      have hfetch : Keeping Inv End (Run.fetch setup command.name command.loc) := hg.fetch _ _
      apply (hfetch s hinv).bind
      intro callee s₁ _ hinv₁
      cases callee with
      | some callee => exact hg.openCall command callee s₁ hinv₁
      | none => exact .fail (.inl hinv₁)

/-! ### Tasks -/

/-- What the steps of the machine are made of keeps the property. -/
theorem machinery : Machinery setup fun _ m => Keeping Inv End m where
  pure := .pure
  bind := .bind
  read := .read
  fail := .fail
  scope := fun _ => .modify fun _ => rfl
  iterate := .modify fun _ => rfl
  assign := fun name value => .of_kept fun s hinv => by
    unfold Run.assign
    cases s.env.assign? name value <;> exact hinv
  flow := fun loc kind hflow hentered => hg.flowTrace loc hflow (.of_not_entered hentered)
  cancelled := hg.check
  eval := hg.eval
  condition := hg.evalCondition

/-- One step of what is left to do, whose command, if it dispatches one, is looked at apart. -/
theorem run (task : Task) {s : State σ} (hinv : Inv s.outside)
    (hdispatch : ∀ call handler s', task.Dispatches setup s call handler s' → Inv s'.outside →
      Ends (dispatch setup call handler) s' (fun _ s'' => Inv s''.outside)
        (fun x s'' => Inv s''.outside ∨ End x s''.outside)) :
    Ends (task.run setup) s (fun _ s' => Inv s'.outside)
      (fun x s' => Inv s'.outside ∨ End x s'.outside) := by
  cases task with
  | whole program =>
    exact (hg.validate program s hinv).bind fun _ _ _ hinv' =>
      .modify_bind (.pure hinv')
  | each statements =>
    cases statements with
    | nil => exact .pure hinv
    | cons statement rest =>
      apply (hg.machinery.checkLocated statement s hinv).bind
      intro _ s₁ hchecked hinv₁
      have hopened : Ends (Run.openStatement setup statement) s₁ (fun _ s' => Inv s'.outside)
          (fun x s' => Inv s'.outside ∨ End x s'.outside) := by
        cases statement with
        | command name args loc =>
          apply hg.openCommand ⟨name, args, loc⟩ hinv₁
          intro handler hno hfound
          exact hdispatch _ handler s₁ ⟨⟨rest, rfl⟩, hchecked, hno, hfound⟩ hinv₁
        | _ => exact hg.machinery.openStatement _ (fun _ _ _ h => by cases h) s₁ hinv₁
      exact hopened.bind fun _ _ _ hinv' => .pure hinv'
  | closeScope => exact .modify_bind (.pure hinv)
  | closeFrame => exact .modify_bind (.pure hinv)
  | count loc n body i =>
    exact hg.machinery.turn (.pure _) (hg.machinery.beginIteration loc i none)
      (hg.machinery.openBody body) _ s hinv
  | test loc e body i =>
    exact hg.machinery.turn (hg.evalCondition e) (hg.machinery.beginIteration loc i none)
      (hg.machinery.openBody body) _ s hinv
  | range loc name stop step body c =>
    exact hg.machinery.turn (.pure _) (hg.machinery.beginIteration loc c.iteration _)
      (hg.machinery.openRound name c.value body) _ s hinv

end Flowing

namespace Guarded

variable (hg : Guarded setup Inv End)
include hg

theorem openStatement (statement : Statement) :
    Keeping Inv End (Run.openStatement setup statement) := by
  apply hg.toFlowing.machinery.openStatement
  intro name args loc _ s hinv
  apply hg.toFlowing.openCommand ⟨name, args, loc⟩ hinv
  intro handler _ hfound
  exact hg.dispatch _ handler hfound s hinv

theorem run (task : Task) : Keeping Inv End (task.run setup) := by
  intro s hinv
  apply hg.toFlowing.run task hinv
  intro call handler s' hstarts hinv'
  exact hg.dispatch call handler hstarts.found s' hinv'

end Guarded

/-! ## Runs of the machine -/

/-- The machine comes to the end of the run. -/
theorem steps_to_end (setup : Setup σ) (program : Program) (journal : Journal) (world : σ) :
    ∃ steps last, (Config.initial program journal world).after setup steps = some last ∧
      last.next setup = none ∧
      body setup program (start journal world) = (last.status, last.state) := by
  have hready : Ready setup setup.options.maxCallDepth (start journal world) :=
    ⟨Nat.zero_add _, Nat.zero_le _⟩
  obtain ⟨begun, hreaches, -⟩ := whole_completes setup program _ hready []
  obtain ⟨steps, hsteps, -⟩ := hreaches.steps
  exact ⟨steps, _, hsteps, rfl, rfl⟩

/-- The property holds, or the run has been terminated in one of the given ways. -/
def Config.Kept (Inv : Outside σ → Prop) (End : Termination → Outside σ → Prop) (c : Config σ) :
    Prop :=
  Inv c.state.outside ∨ ∃ x, c.status = .error x ∧ End x c.state.outside

namespace Guarded

variable (hg : Guarded setup Inv End)
include hg

theorem next {c d : Config σ} (hnext : c.next setup = some d) (h : c.Kept Inv End) :
    d.Kept Inv End := by
  cases hstatus : c.status with
  | error x =>
    have hstays := Config.error_of_next hnext hstatus
    have houtside := Config.outside_of_next hnext hstatus
    unfold Config.Kept at h ⊢
    rw [hstays, houtside]
    rwa [hstatus] at h
  | ok _ =>
    have hinv : Inv c.state.outside := by
      rcases h with hinv | ⟨x, herror, -⟩
      · exact hinv
      · rw [hstatus] at herror
        cases herror
    obtain ⟨task, rest, -, ⟨advance, hrun, -, -⟩ | ⟨x, hrun, herror⟩⟩ :=
      Config.next_cases hnext hstatus
    · exact .inl ((hg.run task c.state hinv).ok advance d.state hrun)
    · rcases (hg.run task c.state hinv).error x d.state hrun with hinv' | hend
      · exact .inl hinv'
      · exact .inr ⟨x, herror, hend⟩

theorem after {c d : Config σ} {steps : Nat} (h : c.after setup steps = some d)
    (hc : c.Kept Inv End) : d.Kept Inv End := by
  induction steps generalizing c with
  | zero =>
    cases h
    exact hc
  | succ steps ih =>
    obtain ⟨e, hnext, hrest⟩ := Option.bind_eq_some_iff.1 h
    exact ih hrest (hg.next hnext hc)

/-- What every step keeps holds at the end of every run. -/
theorem body (program : Program) (journal : Journal) (world : σ)
    (hstart : Inv (start journal world).outside) :
    Ends (Run.body setup program) (start journal world) (fun _ s => Inv s.outside)
      (fun x s => Inv s.outside ∨ End x s.outside) := by
  obtain ⟨steps, last, hsteps, -, hbody⟩ := steps_to_end setup program journal world
  have hlast := hg.after hsteps (.inl hstart)
  constructor
  · intro _ s hs
    rw [hbody] at hs
    obtain ⟨hstatus, rfl⟩ := Prod.mk.inj hs
    rcases hlast with hinv | ⟨x, herror, -⟩
    · exact hinv
    · rw [hstatus] at herror
      cases herror
  · intro x s hs
    rw [hbody] at hs
    obtain ⟨hstatus, rfl⟩ := Prod.mk.inj hs
    rcases hlast with hinv | ⟨y, herror, hend⟩
    · exact .inl hinv
    · rw [hstatus] at herror
      cases herror
      exact .inr hend

end Guarded

end

end Run

end BlockScript
