import BlockScript.Proofs.Run.Agreement

/-!
# Commands side by side

From the moment a command counts, what it does is a function of the world and the books outside the
run. This gives the conditions under which two setups dispatch a command alike.
-/
namespace BlockScript
set_option autoImplicit false

/-- The books after a command, with the world as the command has left it. -/
def Outside.concluded {σ : Type} (op : String) (result : StepResult) (world : σ) (o : Outside σ) :
    Outside σ where
  world := world
  journal := o.journal.record result
  results := result :: o.results
  ops := o.ops + 1
  lastOk := some result.isSuccess
  lastOp := some op

namespace Run

variable {σ τ : Type}

/-- The check of the arguments and, if they pass, the action. -/
def attempt (handler : CommandHandler σ) (args : Arguments) : Act σ (Except Fault (List String)) :=
  fun world =>
    match handler.validate args world with
    | (.ok (), world) => handler.execute args world
    | (.error fault, world) => (.error fault, world)

/-- The result of a command whose arguments have been prepared. -/
def settle (call : CommandCall) (handler : CommandHandler σ) (opIndex : Nat) (stamp : Timestamp) :
    Prepared → Act σ StepResult
  | .lookupFailed message notes => fun world =>
    (lookupResult call opIndex stamp message notes, world)
  | .ready args notes => fun world =>
    (resultOf call opIndex stamp notes (attempt handler args world).1,
      (attempt handler args world).2)

/-- Whether the run goes on after a result. -/
def afterResult (setup : Setup σ) (loc : Location) (state : State σ) :
    StepResult → Except Termination Unit
  | .success _ => .ok ()
  | .failure step =>
    if step.kind = .connectionLost ∨ setup.options.stopOnFailure then
      .error (terminate (.commandFailed step.kind step.op step.message) loc step.notes state)
    else .ok ()

theorem perform_eq (handler : CommandHandler σ) (args : Arguments) (s : State σ) :
    perform handler args s =
      (.ok (attempt handler args s.world).1,
        s.withOutside { s.outside with world := (attempt handler args s.world).2 }) := by
  unfold perform attempt
  rw [bind_ok (ask_eq _ s)]
  cases hv : handler.validate args s.world with
  | mk answer world =>
    cases answer with
    | error fault => rfl
    | ok _ => rfl

theorem record_eq (setup : Setup σ) (loc : Location) (result : StepResult) (s : State σ) :
    record setup loc result s =
      (afterResult setup loc
        { s with
          lastOk := some result.isSuccess
          journal := s.journal.record result
          results := result :: s.results } result,
        { s with
          lastOk := some result.isSuccess
          journal := s.journal.record result
          results := result :: s.results }) := by
  cases result with
  | success step => rfl
  | failure step =>
    unfold record afterResult
    dsimp only [modify, bind]
    split <;> rfl

/-- A command that counts has one result, which is kept whether or not the run goes on. -/
theorem conclude_eq (setup : Setup σ) (call : CommandCall) (handler : CommandHandler σ)
    (opIndex : Nat) (prepared : Prepared) (s : State σ) :
    conclude setup call handler opIndex prepared s =
      (let settled := settle call handler opIndex s.journal.createdAt prepared s.world
       let after := s.withOutside (s.outside.concluded call.name settled.1 settled.2)
       (afterResult setup call.loc after settled.1, after)) := by
  cases prepared with
  | lookupFailed message notes =>
    change record setup call.loc (lookupResult call opIndex s.journal.createdAt message notes)
      { s with ops := s.ops + 1, lastOp := some call.name } = _
    rw [record_eq]
    rfl
  | ready args notes =>
    change (perform handler args >>= fun outcome => record setup call.loc
      (resultOf call opIndex s.journal.createdAt notes outcome))
        { s with ops := s.ops + 1, lastOp := some call.name } = _
    rw [bind_ok (perform_eq handler args _), record_eq]
    rfl

/-- What must hold of two setups so that they announce a command alike. -/
structure SameEntry (a : Setup σ) (b : Setup τ) (J : Outside σ → Outside τ → Prop)
    (Cut : Termination → Outside σ → Outside τ → Prop) (call : CommandCall) : Prop where
  cancelled : AsksAlike J a.context.cancelled b.context.cancelled
  opLimit : a.options.opLimit ≤ b.options.opLimit
  opCut : a.options.opLimit < b.options.opLimit → ∀ (s : State σ) (t : State τ),
    J s.outside t.outside → a.options.opLimit ≤ s.ops →
      Cut (terminate (.opLimit a.options.opLimit call.name) call.loc [] s) s.outside t.outside
  started : ∀ o p, J o p →
    J (o.traced a call.loc (.commandStarted o.ops call.name))
      (p.traced b call.loc (.commandStarted p.ops call.name))

/-- The scans that two commands ask for go alike. -/
def ScansAlike (a : Setup σ) (b : Setup τ) (J : Outside σ → Outside τ → Prop)
    (Cut : Termination → Outside σ → Outside τ → Prop) (loc : Location) (h : CommandHandler σ)
    (h' : CommandHandler τ) : Prop :=
  ∀ (k : Nat) (R : State σ → State τ → Prop), Shows R (fun o p => J o p ∧ o.ops = k) →
    Follows R Cut (Run.autoScan a loc h) (Run.autoScan b loc h')

/-- What must hold of two setups so that they start a command alike. -/
structure SameStart (a : Setup σ) (b : Setup τ) (J : Outside σ → Outside τ → Prop)
    (Cut : Termination → Outside σ → Outside τ → Prop) (call : CommandCall) (h : CommandHandler σ)
    (h' : CommandHandler τ) : Prop extends SameEntry a b J Cut call where
  autoScan : a.options.autoScan = b.options.autoScan
  needsScan : AsksAlike J h.needsScan h'.needsScan
  scan : AsksAlike J (a.context.probe.scan a.options.defaultScanRadius)
    (b.context.probe.scan b.options.defaultScanRadius)

/-- What must hold of two setups so that a command has its result alike. -/
structure SameEnd (a : Setup σ) (b : Setup τ) (J : Outside σ → Outside τ → Prop)
    (Cut : Termination → Outside σ → Outside τ → Prop) (call : CommandCall) (h : CommandHandler σ)
    (h' : CommandHandler τ) : Prop where
  stopOnFailure : a.options.stopOnFailure = b.options.stopOnFailure
  settles : ∀ o p prepared, J o p → o.ops < a.options.opLimit →
    (settle call h o.ops o.journal.createdAt prepared o.world).1 =
        (settle call h' p.ops p.journal.createdAt prepared p.world).1 ∧
      J (o.concluded call.name (settle call h o.ops o.journal.createdAt prepared o.world).1
          (settle call h o.ops o.journal.createdAt prepared o.world).2)
        (p.concluded call.name (settle call h' p.ops p.journal.createdAt prepared p.world).1
          (settle call h' p.ops p.journal.createdAt prepared p.world).2)
  cutConcluded : ∀ x o p result world, Cut x o p → Cut x o (p.concluded call.name result world)

/-- What must hold of two setups so that they dispatch a command alike. -/
structure SameCommand (a : Setup σ) (b : Setup τ) (J : Outside σ → Outside τ → Prop)
    (Cut : Termination → Outside σ → Outside τ → Prop) (call : CommandCall) (h : CommandHandler σ)
    (h' : CommandHandler τ) : Prop extends SameStart a b J Cut call h h',
    SameEnd a b J Cut call h h'

section

variable {a : Setup σ} {b : Setup τ} {R : State σ → State τ → Prop}
  {J : Outside σ → Outside τ → Prop} {Cut : Termination → Outside σ → Outside τ → Prop}

theorem Outside.traced_ops (setup : Setup σ) (loc : Location) (kind : TraceKind) (o : Outside σ) :
    (o.traced setup loc kind).ops = o.ops := by
  unfold Outside.traced
  split <;> rfl

theorem Outside.traced_world (setup : Setup σ) (loc : Location) (kind : TraceKind)
    (o : Outside σ) : (o.traced setup loc kind).world = o.world := by
  unfold Outside.traced
  split <;> rfl

/-! ## Between the start of a command and its count -/

theorem AsksAlike.atOps {α : Type} {f : Act σ α} {g : Act τ α} (h : AsksAlike J f g) (k : Nat) :
    AsksAlike (fun o p => J o p ∧ o.ops = k) f g :=
  ⟨fun o p hj => h.answer o p hj.1, fun o p hj => ⟨h.kept o p hj.1, hj.2⟩⟩

theorem Shows.atOps (h : Shows R J) (k : Nat) :
    Shows (fun s t => R s t ∧ s.ops = k) (fun o p => J o p ∧ o.ops = k) where
  outside := fun hst => ⟨h.outside hst.1, hst.2⟩
  update := fun hst ho => ⟨h.update hst.1 ho.1, ho.2⟩

/-- Evaluation does not change how many commands have been counted. -/
theorem SameSight.atOps (hs : SameSight a b J Cut) (k : Nat) :
    SameSight a b (fun o p => J o p ∧ o.ops = k) Cut where
  actor := hs.actor
  ops := fun o p h => hs.ops o p h.1
  lastOp := fun o p h => hs.lastOp o p h.1
  lastOk := fun o p h => hs.lastOk o p h.1
  stamp := fun o p h => hs.stamp o p h.1
  pose := hs.pose.atOps k
  search := fun query origin => (hs.search query origin).atOps k
  waypoint := fun name => (hs.waypoint name).atOps k
  predicate := fun name => by
    have h := hs.predicate name
    revert h
    cases a.context.registry.predicate? name <;> cases b.context.registry.predicate? name <;>
      intro h
    · exact .none
    · cases h
    · cases h
    · cases h with
      | some h => exact .some fun args => (h args).atOps k
  told := fun loc name value o p hname h =>
    ⟨hs.told loc name value o p hname h.1, by rw [Outside.traced_ops]; exact h.2⟩
  toldLastOk := fun loc o p h =>
    ⟨hs.toldLastOk loc o p h.1, by rw [Outside.traced_ops]; exact h.2⟩
  cutWorld := hs.cutWorld
  cutTraced := hs.cutTraced

/-- The second conclusion of a command follows the first one. -/
structure Concludes (a : Setup σ) (b : Setup τ) (R : State σ → State τ → Prop)
    (Cut : Termination → Outside σ → Outside τ → Prop) (call : CommandCall) (h : CommandHandler σ)
    (h' : CommandHandler τ) : Prop where
  agree : ∀ prepared {s t}, R s t → s.ops < a.options.opLimit →
    Agree R Cut (Run.conclude a call h s.ops prepared s)
      (Run.conclude b call h' t.ops prepared t)
  survives : ∀ opIndex prepared, Lasts Cut (Run.conclude b call h' opIndex prepared)

/-- Scans go alike if the same commands ask for them and the worlds are scanned alike. -/
theorem SameStart.scansAlike {call : CommandCall} {h : CommandHandler σ} {h' : CommandHandler τ}
    (hd : SameStart a b J Cut call h h') (hs : SameSight a b J Cut) :
    ScansAlike a b J Cut call.loc h h' := by
  intro k Q hQ
  unfold Run.autoScan
  rw [hd.autoScan]
  split
  · refine .bind ((hs.atOps k).ask hQ (hd.needsScan.atOps k)) fun needed => ?_
    cases needed with
    | false => exact .pure ()
    | true =>
      refine .bind ((hs.atOps k).ask hQ (hd.scan.atOps k)) fun answer => ?_
      match answer with
      | .ok () => exact .pure ()
      | .error (.unavailable _) => exact .pure ()
      | .error (.connectionLost _) => exact (hs.atOps k).fail hQ _ _
  · exact .pure ()

namespace SameEntry

variable {call : CommandCall} {h : CommandHandler σ} {h' : CommandHandler τ}

theorem checkCancelled (hd : SameEntry a b J Cut call) (hs : SameSight a b J Cut)
    (hR : Shows R J) :
    Follows R Cut (Run.checkCancelled a call.loc) (Run.checkCancelled b call.loc) := by
  refine .bind (hs.ask hR hd.cancelled) fun stopped => ?_
  cases stopped with
  | true => exact hs.fail hR _ _
  | false => exact .pure ()

/-- Until a command counts, the number of commands stays what it was when the command started. -/
theorem arrange (hd : SameEntry a b J Cut call) (hs : SameSight a b J Cut)
    (hscan : ScansAlike a b J Cut call.loc h h') (hR : Shows R J)
    (hargs : ∀ name ∈ Variables.ofArgs call.args, ShowsVar R name) (opIndex : Nat) :
    Follows (fun s t => R s t ∧ s.ops = opIndex) Cut (Run.arrange a call h opIndex)
      (Run.arrange b call h' opIndex) := by
  have hs' := hs.atOps opIndex
  have hR' := hR.atOps opIndex
  have hargs' : ∀ name ∈ Variables.ofArgs call.args,
      ShowsVar (fun s t => R s t ∧ s.ops = opIndex) name :=
    fun name hname s t hst => hargs name hname s t hst.1
  have htrace : Follows (fun s t => R s t ∧ s.ops = opIndex) Cut
      (Run.trace a call.loc (.commandStarted opIndex call.name))
      (Run.trace b call.loc (.commandStarted opIndex call.name)) := by
    refine hs'.trace hR' ?_
    rintro o p ⟨hj, rfl⟩
    refine ⟨?_, Outside.traced_ops ..⟩
    have hstarted := hd.started o p hj
    rwa [← hs.ops o p hj] at hstarted
  exact .bind htrace fun _ => .bind (hs'.evalArgs_of_vars hR' _ hargs') fun _ =>
    .bind (hscan opIndex _ hR') fun _ => hs'.prepare hR' _ _

/-! ## The whole dispatch -/

/-- Past the limit check a command is carried out alike, if its conclusion is. -/
theorem carriedOut (hd : SameEntry a b J Cut call) (hs : SameSight a b J Cut)
    (hscan : ScansAlike a b J Cut call.loc h h') (hR : Shows R J)
    (hargs : ∀ name ∈ Variables.ofArgs call.args, ShowsVar R name)
    (hconclude : Concludes a b R Cut call h h') {s : State σ} {t : State τ} (hst : R s t)
    (hops : s.ops < a.options.opLimit) :
    Agree R Cut ((Run.arrange a call h s.ops >>= Run.conclude a call h s.ops) s)
      ((Run.arrange b call h' s.ops >>= Run.conclude b call h' s.ops) t) := by
  refine .bind (fun _ _ hst => hst.1) ((hd.arrange hs hscan hR hargs s.ops).agree s t ⟨hst, rfl⟩) ?_ ?_
  · rintro prepared s' t' ⟨hst', hcount⟩
    have hcount' : t'.ops = s.ops := by
      rw [← hcount]
      exact (hs.ops _ _ (hR.outside hst')).symm
    have h := hconclude.agree prepared hst' (hcount ▸ hops)
    rwa [hcount, hcount'] at h
  · intro prepared
    exact hconclude.survives s.ops prepared

theorem dispatch_of_vars (hd : SameEntry a b J Cut call) (hs : SameSight a b J Cut)
    (hscan : ScansAlike a b J Cut call.loc h h') (hR : Shows R J)
    (hargs : ∀ name ∈ Variables.ofArgs call.args, ShowsVar R name)
    (hconclude : Concludes a b R Cut call h h') :
    Follows R Cut (Run.dispatch a call h) (Run.dispatch b call h') := by
  refine .bind (hd.checkCancelled hs hR) fun _ => ?_
  have hcarried : ∀ opIndex,
      Lasts Cut (Run.arrange b call h' opIndex >>= Run.conclude b call h' opIndex) :=
    fun opIndex => (hd.arrange hs hscan hR hargs opIndex).survives.bind fun prepared =>
      hconclude.survives opIndex prepared
  have hlasts : ∀ opIndex, Lasts Cut
      (if b.options.opLimit ≤ opIndex then Run.fail (.opLimit b.options.opLimit call.name) call.loc
        else Run.arrange b call h' opIndex >>= Run.conclude b call h' opIndex) := by
    intro opIndex
    split
    · exact fun _ _ _ hcut => hcut
    · exact hcarried opIndex
  refine ⟨fun s t hst => ?_, fun x o t hcut => hlasts t.ops x o t hcut⟩
  have hcount : s.ops = t.ops := hs.ops _ _ (hR.outside hst)
  change Agree R Cut
    ((if a.options.opLimit ≤ s.ops then Run.fail (.opLimit a.options.opLimit call.name) call.loc
      else Run.arrange a call h s.ops >>= Run.conclude a call h s.ops) s)
    ((if b.options.opLimit ≤ t.ops then Run.fail (.opLimit b.options.opLimit call.name) call.loc
      else Run.arrange b call h' t.ops >>= Run.conclude b call h' t.ops) t)
  rw [← hcount]
  by_cases hfirst : a.options.opLimit ≤ s.ops
  · rw [if_pos hfirst]
    rcases Nat.eq_or_lt_of_le hd.opLimit with heq | hlt
    · rw [← heq, if_pos hfirst]
      exact (hs.fail hR _ _).agree s t hst
    · refine .cut (hlasts s.ops _ _ t ?_)
      exact hd.opCut hlt s t (hR.outside hst) hfirst
  · have hsecond : ¬ b.options.opLimit ≤ s.ops := by
      have hle := hd.opLimit
      omega
    rw [if_neg hfirst, if_neg hsecond]
    exact hd.carriedOut hs hscan hR hargs hconclude hst (Nat.lt_of_not_le hfirst)

end SameEntry

namespace SameStart

variable {call : CommandCall} {h : CommandHandler σ} {h' : CommandHandler τ}

theorem dispatch (hd : SameStart a b J Cut call h h') (hs : SameSight a b J Cut) (hR : Sees R J)
    (hconclude : Concludes a b R Cut call h h') :
    Follows R Cut (Run.dispatch a call h) (Run.dispatch b call h') :=
  hd.toSameEntry.dispatch_of_vars hs (hd.scansAlike hs) hR (hR.showsVars _) hconclude

end SameStart

/-! ## Commands that are concluded alike -/

/-- Two runs go on or end alike after the same result. -/
theorem SameSight.afterResult (hs : SameSight a b J Cut)
    (hstop : a.options.stopOnFailure = b.options.stopOnFailure) (loc : Location)
    {s : State σ} {t : State τ} (hj : J s.outside t.outside) {result result' : StepResult}
    (hresult : result = result') :
    Run.afterResult a loc s result = Run.afterResult b loc t result' := by
  subst hresult
  cases result with
  | success step => rfl
  | failure step => simp only [Run.afterResult, hstop, hs.terminate_eq hj]

namespace SameEnd

variable {call : CommandCall} {h : CommandHandler σ} {h' : CommandHandler τ}

theorem conclude (hd : SameEnd a b J Cut call h h') (hs : SameSight a b J Cut) (hR : Shows R J)
    (prepared : Prepared) {s : State σ} {t : State τ} (hst : R s t)
    (hops : s.ops < a.options.opLimit) :
    Agree R Cut (Run.conclude a call h s.ops prepared s)
      (Run.conclude b call h' t.ops prepared t) := by
  obtain ⟨hresult, hkept⟩ := hd.settles _ _ prepared (hR.outside hst) hops
  rw [conclude_eq, conclude_eq]
  have hafter := hR.update hst hkept
  exact .of_eq (hs.afterResult hd.stopOnFailure call.loc (hR.outside hafter) hresult) hafter

theorem conclude_lasts (hd : SameEnd a b J Cut call h h') (opIndex : Nat)
    (prepared : Prepared) : Lasts Cut (Run.conclude b call h' opIndex prepared) := by
  intro x o t hcut
  rw [conclude_eq]
  exact hd.cutConcluded x o t.outside _ _ hcut

theorem concludes (hd : SameEnd a b J Cut call h h') (hs : SameSight a b J Cut)
    (hR : Shows R J) : Concludes a b R Cut call h h' :=
  ⟨fun prepared _ _ hst hops => hd.conclude hs hR prepared hst hops, hd.conclude_lasts⟩

end SameEnd

namespace SameCommand

variable {call : CommandCall} {h : CommandHandler σ} {h' : CommandHandler τ}

theorem dispatch_of_vars (hd : SameCommand a b J Cut call h h') (hs : SameSight a b J Cut)
    (hR : Shows R J) (hargs : ∀ name ∈ Variables.ofArgs call.args, ShowsVar R name) :
    Follows R Cut (Run.dispatch a call h) (Run.dispatch b call h') :=
  hd.toSameEntry.dispatch_of_vars hs (hd.toSameStart.scansAlike hs) hR hargs
    (hd.toSameEnd.concludes hs hR)

theorem dispatch (hd : SameCommand a b J Cut call h h') (hs : SameSight a b J Cut)
    (hR : Sees R J) : Follows R Cut (Run.dispatch a call h) (Run.dispatch b call h') :=
  hd.dispatch_of_vars hs hR (hR.showsVars _)

end SameCommand

end

/-- A setup dispatches a command as it does. -/
theorem SameCommand.refl (setup : Setup σ) (call : CommandCall) (handler : CommandHandler σ) :
    SameCommand setup setup (fun o p => o = p) (fun _ _ _ => False) call handler handler where
  cancelled := .refl _
  opLimit := Nat.le_refl _
  opCut := fun hlt => absurd hlt (Nat.lt_irrefl _)
  started := fun _ _ h => h ▸ rfl
  autoScan := rfl
  needsScan := .refl _
  scan := .refl _
  stopOnFailure := rfl
  settles := fun _ _ _ h _ => h ▸ ⟨rfl, rfl⟩
  cutConcluded := fun _ _ _ _ _ h => h

end Run

end BlockScript
