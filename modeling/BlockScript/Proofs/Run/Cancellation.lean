import BlockScript.Proofs.Run.Invariants
import BlockScript.Proofs.Run.Observation

/-!
# Cancelling a run

A run asks whether it has been cancelled at its boundaries: before a statement, before a command
and before an iteration. Once the answer is yes, the next boundary ends the run. What a run does in
between is told by the contacts of the watched run; of the commands only one that has passed its
check can still act.
-/
namespace BlockScript
set_option autoImplicit false

/-- The action of a command. -/
def Contact.isExecuted : Contact → Bool
  | executed .. => true
  | _ => false

/-- A check that does not find the run cancelled. -/
def Contact.isPassed : Contact → Bool
  | cancelled false => true
  | _ => false

/-- A contact of a command after its check and before its action. -/
def Contact.isInner : Contact → Bool
  | cancelled _ => false
  | executed .. => false
  | _ => true

/-- The contacts since others were the last ones, all of a kind. Newest first. -/
inductive Since (kind : Contact → Bool) (base : List Contact) : List Contact → Prop where
  | here : Since kind base base
  | next {contact : Contact} {log : List Contact} (h : kind contact = true)
      (hlog : Since kind base log) : Since kind base (contact :: log)

namespace Since

variable {kind : Contact → Bool} {base log early : List Contact} {contact : Contact}

theorem suffix (h : Since kind base log) : base <:+ log := by
  induction h with
  | here => exact List.suffix_refl base
  | next _ _ ih => exact ih.trans (List.suffix_cons ..)

/-- A contact of another kind has not been made since. -/
theorem suffix_of_cons (h : Since kind base log) (hkind : kind contact = false)
    (hearly : contact :: early <:+ log) : contact :: early <:+ base := by
  induction h with
  | here => exact hearly
  | next hnext _ ih =>
    rcases List.suffix_cons_iff.1 hearly with hsame | holder
    · cases hsame
      rw [hkind] at hnext
      cases hnext
    · exact ih holder

end Since

/-- The contacts of a command that has passed its check: perhaps an action, and if so at the end. -/
inductive Dispatched (op : String) (base : List Contact) : List Contact → Prop where
  | idle {log : List Contact} (h : Since Contact.isInner base log) : Dispatched op base log
  | acted {early : List Contact} (h : Since Contact.isInner base early) (args : Arguments)
      (answer : Except Fault (List String)) :
      Dispatched op base (.executed op args answer :: early)

namespace Dispatched

variable {op : String} {base log early : List Contact}

theorem suffix (h : Dispatched op base log) : base <:+ log := by
  cases h with
  | idle h => exact h.suffix
  | acted h args answer => exact h.suffix.trans (List.suffix_cons ..)

/-- An action is older, or it is the last contact. -/
theorem of_executed (h : Dispatched op base log) {name : String} {args : Arguments}
    {answer : Except Fault (List String)} (hearly : .executed name args answer :: early <:+ log) :
    .executed name args answer :: early <:+ base ∨
      op = name ∧ Since Contact.isInner base early := by
  cases h with
  | idle h => exact .inl (h.suffix_of_cons rfl hearly)
  | acted h args' answer' =>
    rcases List.suffix_cons_iff.1 hearly with hsame | holder
    · cases hsame
      exact .inr ⟨rfl, h⟩
    · exact .inl (h.suffix_of_cons rfl holder)

end Dispatched

namespace Run

variable {σ : Type}

/-! ## Contacts of a step -/

section

variable {setup : Setup σ} {Log : List Contact → Prop}

/-- Evaluation neither checks nor acts. -/
theorem sighted_logged
    (hnext : ∀ contact log, contact.isInner = true → Log log → Log (contact :: log)) :
    Sighted setup.watched fun o => Log o.world.2 where
  pose := fun _ h => hnext _ _ rfl h
  search := fun _ _ _ h => hnext _ _ rfl h
  waypoint := fun _ _ h => hnext _ _ rfl h
  predicate := fun name handler hfound args o h => by
    rw [predicate?_watched, Option.map_eq_some_iff] at hfound
    obtain ⟨plain, -, rfl⟩ := hfound
    exact hnext _ _ rfl h
  told := fun o loc name value h => by
    rwa [Outside.traced_world]

/-- Commands apart, a step does not act. -/
theorem flowing_logged
    (hnext : ∀ contact log, (!contact.isExecuted) = true → Log log → Log (contact :: log)) :
    Flowing setup.watched (fun o => Log o.world.2) fun _ _ => False where
  toSighted := sighted_logged fun contact log hinner =>
    hnext contact log (by cases contact <;> first | rfl | cases hinner)
  function := fun _ _ h => hnext _ _ rfl h
  flow := fun o loc kind _ _ h => by
    rwa [Outside.traced_world]
  check := checkCancelled_keeping fun _ h => hnext _ _ rfl h

theorem polled_contacts {s : State (σ × List Contact)} {answer : Bool}
    (hpolled : (setup.watched.context.cancelled s.world).1 = answer) :
    (s.outside.polled setup.watched).world.2 = .cancelled answer :: s.world.2 :=
  congrArg (fun answer => Contact.cancelled answer :: s.world.2) hpolled

theorem dispatch_contacts {call : CommandCall}
    {handler : CommandHandler (σ × List Contact)} {s : State (σ × List Contact)}
    (hfound : setup.watched.context.registry.command? call.name = some handler)
    (hpassed : (setup.watched.context.cancelled s.world).1 = false) :
    Dispatched call.name (.cancelled false :: s.world.2)
      (dispatch setup.watched call handler s).2.world.2 := by
  have hends : Ends (dispatch setup.watched call handler) s
      (fun _ s' => Dispatched call.name (.cancelled false :: s.world.2) s'.outside.world.2)
      (fun _ s' => Dispatched call.name (.cancelled false :: s.world.2) s'.outside.world.2 ∨
        False) := by
    rw [command?_watched, Option.map_eq_some_iff] at hfound
    obtain ⟨plain, -, rfl⟩ := hfound
    apply dispatch_ends
      (fun o => Dispatched call.name (.cancelled false :: s.world.2) o.world.2)
      (fun o => Since Contact.isInner (.cancelled false :: s.world.2) o.world.2)
      (fun o => Since Contact.isInner (.cancelled false :: s.world.2) o.world.2)
      (fun _ _ => False) hpassed
    · show Since Contact.isInner _ (s.outside.polled setup.watched).world.2
      rw [polled_contacts hpassed]
      exact .here
    · exact fun o h => .idle h
    · intro o h
      rwa [Outside.traced_world]
    · exact sighted_logged fun _ _ hinner h => h.next hinner
    · exact fun o h => h.next rfl
    · exact fun o h => h.next rfl
    · exact fun _ o h => .inl (.idle h)
    · intro o prepared h
      obtain ⟨footprint, hfootprint, hsettle⟩ :=
        settle_recorded call plain s.ops o.journal.createdAt prepared o.world
      rw [hsettle]
      show Dispatched call.name _ (footprint.reverse ++ o.world.2)
      have hop := (settle_of_call call plain s.ops o.journal.createdAt prepared o.world.1).2
      generalize (settle call plain s.ops o.journal.createdAt prepared o.world.1).1 = result
        at hfootprint hop
      cases hfootprint with
      | lookup => exact .idle h
      | refused => exact .idle (h.next rfl)
      | executed called _ _ notes args outcome =>
        have hname : called.name = call.name := by
          cases outcome <;> exact hop
        have hchecked :
            Since Contact.isInner _ (.checked called.name args (.ok ()) :: o.world.2) := h.next rfl
        rw [← hname]
        exact .acted hchecked args outcome
  exact hends.state

/-- A step that dispatches a command does nothing else. -/
theorem Task.Dispatches.run_eq {setup : Setup σ} {task : Task} {s₀ s : State σ}
    {call : CommandCall} {handler : CommandHandler σ}
    (h : task.Dispatches setup s₀ call handler s) :
    ∃ rest, task.run setup s₀ =
      (dispatch setup call handler >>= fun _ => pure ⟨[.each rest], 0⟩) s := by
  obtain ⟨⟨rest, rfl⟩, hchecked, hno, hfound⟩ := h
  have hopened : openCommand setup call s =
      (dispatch setup call handler >>= fun _ => pure []) s := by
    unfold openCommand
    rw [bind_ok (show read (·.env.findMacro? call.name) s = (.ok none, s) by rw [read, hno])]
    simp only [hfound]
  refine ⟨rest, ?_⟩
  show (checkCancelled setup call.loc >>= fun _ =>
    openCommand setup call >>= fun tasks => pure (Advance.mk (tasks ++ [.each rest]) 0)) s₀ = _
  rw [bind_ok hchecked]
  cases hs : dispatch setup call handler s with
  | mk answer s' =>
    cases answer with
    | ok _ =>
      rw [bind_ok hs] at hopened ⊢
      exact bind_ok hopened
    | error x =>
      rw [bind_error hs] at hopened ⊢
      exact bind_error hopened

theorem Task.Dispatches.state {setup : Setup σ} {task : Task} {s₀ s : State σ}
    {call : CommandCall} {handler : CommandHandler σ}
    (h : task.Dispatches setup s₀ call handler s) :
    (task.run setup s₀).2 = (dispatch setup call handler s).2 := by
  obtain ⟨rest, hrun⟩ := h.run_eq
  rw [hrun]
  cases hs : dispatch setup call handler s with
  | mk answer s' =>
    cases answer with
    | ok _ => exact congrArg Prod.snd (bind_ok hs)
    | error x => exact congrArg Prod.snd (bind_error hs)

/-- An action that a step adds to the contacts is that of a command which the step dispatches. The
last check before it has been passed, and is that of the command. -/
theorem acts_of_run {task : Task} {s₀ : State (σ × List Contact)} {op : String} {args : Arguments}
    {answer : Except Fault (List String)} {early : List Contact}
    (hearly : .executed op args answer :: early <:+ (task.run setup.watched s₀).2.world.2) :
    .executed op args answer :: early <:+ s₀.world.2 ∨
      ∃ call handler s, task.Dispatches setup.watched s₀ call handler s ∧ call.name = op ∧
        Since Contact.isInner (.cancelled false :: s.world.2) early := by
  have hflowing : Flowing setup.watched
      (fun o => Since (fun contact => !contact.isExecuted) s₀.world.2 o.world.2) fun _ _ => False :=
    flowing_logged fun _ _ hidle h => h.next hidle
  by_cases hcommand : ∃ call handler s, task.Dispatches setup.watched s₀ call handler s
  · obtain ⟨call, handler, s, hcall⟩ := hcommand
    rw [hcall.state] at hearly
    have hlocated : Since (fun contact => !contact.isExecuted) s₀.world.2 s.world.2 :=
      (hflowing.check call.loc s₀ .here).ok () s hcall.checked
    cases hpolled : (setup.watched.context.cancelled s.world).1 with
    | true =>
      rw [dispatch_stopped hpolled] at hearly
      have hstopped : Since (fun contact => !contact.isExecuted) s₀.world.2
          (s.outside.polled setup.watched).world.2 := hlocated.next rfl
      exact .inl (hstopped.suffix_of_cons rfl hearly)
    | false =>
      rcases (dispatch_contacts hcall.found hpolled).of_executed hearly with holder | ⟨hop, hsince⟩
      · exact .inl ((hlocated.next rfl).suffix_of_cons rfl holder)
      · exact .inr ⟨call, handler, s, hcall, hop, hsince⟩
  · have hends : Ends (task.run setup.watched) s₀ _ _ := hflowing.run task .here
      fun call handler s hcall => absurd ⟨call, handler, s, hcall⟩ hcommand
    exact .inl (hends.state.suffix_of_cons rfl hearly)

/-- The contacts of a run are never forgotten. -/
theorem guarded_grown (setup : Setup σ) (base : List Contact) :
    Guarded setup.watched (fun o => base <:+ o.world.2) fun _ _ => False where
  toFlowing := flowing_logged fun _ _ _ h => h.trans (List.suffix_cons ..)
  dispatch := fun call handler hfound => by
    apply Keeping.of_kept
    intro s hgrown
    apply hgrown.trans
    cases hpolled : (setup.watched.context.cancelled s.world).1 with
    | true =>
      rw [dispatch_stopped hpolled]
      exact List.suffix_cons ..
    | false =>
      have hdispatched := dispatch_contacts hfound hpolled
      exact (List.suffix_cons ..).trans hdispatched.suffix

end

/-! ## Boundaries -/

/-- Where a loop stands, and its next test. -/
def Task.test? (setup : Setup σ) : Task → Option (Location × Run σ Bool)
  | count loc n _ i => some (loc, pure (i < n.toInt))
  | test loc e _ _ => some (loc, evalCondition setup e)
  | range loc _ stop step _ c => some (loc, pure (inRange step stop c.value))
  | _ => none

/-- A step of a task comes to a boundary, and to which state: it is about to start a statement with
a location, a command, or an iteration whose test has been passed. -/
inductive Task.Starts (setup : Setup σ) (s₀ : State σ) : Task → State σ → Location → Prop where
  | statement {statement : Statement} {loc : Location} (h : statement.loc? = some loc)
      (rest : List Statement) : Starts setup s₀ (.each (statement :: rest)) s₀ loc
  | command {task : Task} {call : CommandCall} {handler : CommandHandler σ} {s : State σ}
      (h : task.Dispatches setup s₀ call handler s) : Starts setup s₀ task s call.loc
  | iteration {task : Task} {loc : Location} {more : Run σ Bool} {s : State σ}
      (htest : task.test? setup = some (loc, more)) (hmore : more s₀ = (.ok true, s)) :
      Starts setup s₀ task s loc

section

variable {setup : Setup σ} {task : Task}

/-- An iteration begins with a check, then it counts and opens the body of the loop. -/
theorem Task.run_test {loc : Location} {more : Run σ Bool}
    (h : task.test? setup = some (loc, more)) :
    ∃ iteration binding opened again,
      (∀ P : ∀ α : Type, Run σ α → Prop, Machinery setup P → P (List Task) opened) ∧
      task.run setup = turn more (beginIteration setup loc iteration binding) opened again := by
  cases task with
  | count loc n body i =>
    cases h
    exact ⟨_, _, _, _, fun _ hP => hP.openBody body, rfl⟩
  | test loc e body i =>
    cases h
    exact ⟨_, _, _, _, fun _ hP => hP.openBody body, rfl⟩
  | range loc name stop step body c =>
    cases h
    exact ⟨_, _, _, _, fun _ hP => hP.openRound name c.value body, rfl⟩
  | _ => cases h

/-- Only an iteration counts as one, and only if its test has been passed. -/
theorem Task.test_of_begun {s₀ s' : State σ} {advance : Advance}
    (hrun : task.run setup s₀ = (.ok advance, s')) (hbegun : 0 < advance.begun) :
    ∃ loc more s, task.test? setup = some (loc, more) ∧ more s₀ = (.ok true, s) := by
  have hturn : ∀ {loc more}, task.test? setup = some (loc, more) →
      ∃ s, more s₀ = (.ok true, s) := by
    intro loc more htest
    obtain ⟨_, _, _, _, -, hsame⟩ := Task.run_test htest
    rw [hsame] at hrun
    obtain ⟨goes, s, hmore, hrest⟩ := bind_eq_ok hrun
    cases goes with
    | true => exact ⟨s, hmore⟩
    | false =>
      cases hrest
      cases hbegun
  cases htest : task.test? setup with
  | some found =>
    obtain ⟨loc, more⟩ := found
    obtain ⟨s, hmore⟩ := hturn htest
    exact ⟨loc, more, s, rfl, hmore⟩
  | none =>
    have hnone : advance.begun = 0 := by
      cases task with
      | each statements =>
        cases statements with
        | nil =>
          cases hrun
          rfl
        | cons statement rest =>
          obtain ⟨_, _, -, hrest⟩ := bind_eq_ok hrun
          obtain ⟨_, _, -, hlast⟩ := bind_eq_ok hrest
          cases hlast
          rfl
      | whole program =>
        obtain ⟨_, _, -, hrest⟩ := bind_eq_ok hrun
        cases hrest
        rfl
      | closeScope =>
        cases hrun
        rfl
      | closeFrame =>
        cases hrun
        rfl
      | _ => cases htest
    omega

namespace Task.Starts

/-- At a boundary the first thing to do is the check. -/
theorem run_eq {s₀ s : State σ} {loc : Location} (h : task.Starts setup s₀ s loc) :
    ∃ k : Unit → Run σ Advance, task.run setup s₀ = (checkCancelled setup loc >>= k) s := by
  cases h with
  | @statement statement _ hloc rest =>
    have hcheck : checkLocated setup statement = checkCancelled setup loc := by
      unfold checkLocated
      rw [hloc]
    rw [← hcheck]
    exact ⟨_, rfl⟩
  | command hcall =>
    obtain ⟨rest, hrun⟩ := hcall.run_eq
    rw [hrun, dispatch, bind_assoc]
    exact ⟨_, rfl⟩
  | iteration htest hmore =>
    obtain ⟨_, _, _, _, -, hrun⟩ := Task.run_test htest
    rw [hrun, turn, bind_ok hmore, if_pos rfl, beginIteration, bind_assoc]
    exact ⟨_, rfl⟩

/-- Once the answer is yes, the step ends the run and does nothing else. -/
theorem stops {s₀ s : State σ} {loc : Location} (h : task.Starts setup s₀ s loc)
    (hset : (setup.context.cancelled s.world).1 = true) :
    task.run setup s₀ =
      (.error (terminate .cancelled loc [] (s.withOutside (s.outside.polled setup))),
        s.withOutside (s.outside.polled setup)) := by
  obtain ⟨k, hrun⟩ := h.run_eq
  rw [hrun]
  exact bind_error (checkCancelled_stopped hset loc)

/-- The answer to the check is among the contacts. -/
theorem asked {s₀ s : State (σ × List Contact)} {loc : Location}
    (h : task.Starts setup.watched s₀ s loc) :
    (s.outside.polled setup.watched).world.2 <:+ (task.run setup.watched s₀).2.world.2 := by
  cases hpolled : (setup.watched.context.cancelled s.world).1 with
  | true =>
    rw [h.stops hpolled]
    exact List.suffix_refl _
  | false =>
    have hgrown := guarded_grown setup (s.outside.polled setup.watched).world.2
    cases h with
    | @statement statement _ hloc rest =>
      have hcheck : checkLocated setup.watched statement s₀ =
          (.ok (), s₀.withOutside (s₀.outside.polled setup.watched)) := by
        unfold checkLocated
        rw [hloc]
        exact checkCancelled_passed hpolled loc
      have hrest : Keeping _ _ (openStatement setup.watched statement >>= fun tasks =>
          pure (Advance.mk (tasks ++ [.each rest]) 0)) :=
        .bind (hgrown.openStatement statement) fun _ => .pure _
      have hends := hrest (s₀.withOutside (s₀.outside.polled setup.watched)) (List.suffix_refl _)
      rw [Task.run, bind_ok hcheck]
      exact hends.state
    | command hcall =>
      have hdispatched := dispatch_contacts hcall.found hpolled
      rw [hcall.state, polled_contacts hpolled]
      exact hdispatched.suffix
    | iteration htest hmore =>
      obtain ⟨iteration, binding, opened, again, hopened, hrun⟩ := Task.run_test htest
      have hmachine := hgrown.toFlowing.machinery
      have hround := hmachine.bind (hmachine.countIteration loc iteration binding) fun _ =>
        hmachine.bind (hopened _ hmachine) fun tasks =>
          hmachine.pure (Advance.mk (tasks ++ again) 1)
      have hends := hround (s.withOutside (s.outside.polled setup.watched)) (List.suffix_refl _)
      rw [hrun, turn, bind_ok hmore, if_pos rfl, beginIteration, bind_assoc,
        bind_ok (checkCancelled_passed hpolled loc)]
      exact hends.state

end Task.Starts

end

/-! ## Whole runs -/

/-- The machine comes to a configuration. -/
def Visits (setup : Setup σ) (program : Program) (journal : Journal) (world : σ) (c : Config σ) :
    Prop :=
  ∃ steps, (Config.initial program journal world).after setup steps = some c

/-- The next step of the machine is a step of the task. -/
def Config.Runs (c : Config σ) (task : Task) : Prop :=
  c.status = .ok () ∧ ∃ rest, c.tasks = task :: rest

/-- The place of the statement that the next step of the machine is about to start. -/
def Config.located? (c : Config σ) : Option Location :=
  match c.status, c.tasks with
  | .ok (), .each (statement :: _) :: _ => statement.loc?
  | _, _ => none

/-- The contacts of a run, oldest first, before and after its token has been set: no later check is
passed. -/
structure CancelledFrom (setup : Setup σ) (program : Program) (journal : Journal) (world : σ)
    (before after : List Contact) : Prop where
  contacts : (Run.program setup.watched program journal (world, [])).2.world.2.reverse =
    before ++ after
  set : ∀ contact ∈ after, contact.isPassed = false

section

variable {setup : Setup σ} {program : Program} {journal : Journal} {world : σ}

namespace Visits

theorem next {c d : Config σ} (h : Visits setup program journal world c)
    (hnext : c.next setup = some d) : Visits setup program journal world d := by
  obtain ⟨steps, hsteps⟩ := h
  refine ⟨steps + 1, ?_⟩
  rw [Config.after_add, hsteps]
  show (c.next setup).bind _ = some d
  rw [hnext]
  rfl

/-- From every configuration on the machine comes to the report of the run. -/
theorem ends {c : Config σ} (h : Visits setup program journal world c) :
    ∃ k last, c.after setup k = some last ∧
      finish (outcomeOf last.status) last.state = Run.program setup program journal world := by
  obtain ⟨i, hc⟩ := h
  obtain ⟨n, last, hlast, hnone, hbody⟩ := steps_to_end setup program journal world
  obtain ⟨k, hk⟩ := Config.after_of_last hc hlast hnone
  refine ⟨k, last, hk, ?_⟩
  rw [Run.program, hbody]

theorem grown {c : Config (σ × List Contact)}
    (h : Visits setup.watched program journal (world, []) c) :
    c.state.world.2 <:+ (Run.program setup.watched program journal (world, [])).2.world.2 := by
  obtain ⟨k, last, hlast, hfinish⟩ := h.ends
  rw [← hfinish]
  show c.state.world.2 <:+ last.state.world.2
  have hkept : c.Kept (fun o => c.state.world.2 <:+ o.world.2) fun _ _ => False :=
    .inl (List.suffix_refl _)
  rcases (guarded_grown setup _).after hlast hkept with hgrown | ⟨_, _, hfalse⟩
  · exact hgrown
  · exact hfalse.elim

/-- By induction on the number of steps: every action is that of a command which some configuration
dispatches. -/
theorem acts {c : Config (σ × List Contact)}
    (h : Visits setup.watched program journal (world, []) c) {op : String} {args : Arguments}
    {answer : Except Fault (List String)} {early : List Contact}
    (hearly : .executed op args answer :: early <:+ c.state.world.2) :
    ∃ e task call handler s, Visits setup.watched program journal (world, []) e ∧ e.Runs task ∧
      task.Dispatches setup.watched e.state call handler s ∧ call.name = op ∧
      Since Contact.isInner (.cancelled false :: s.world.2) early := by
  obtain ⟨steps, hsteps⟩ := h
  induction steps generalizing c with
  | zero =>
    cases hsteps
    cases List.suffix_nil.1 hearly
  | succ steps ih =>
    rw [Config.after_add] at hsteps
    obtain ⟨e, he, hstep⟩ := Option.bind_eq_some_iff.1 hsteps
    obtain ⟨d, hnext, hlast⟩ := Option.bind_eq_some_iff.1 hstep
    cases hlast
    cases hstatus : e.status with
    | error x =>
      have houtside := congrArg (fun o => o.world.2) (Config.outside_of_next hnext hstatus)
      exact ih (houtside ▸ hearly) he
    | ok _ =>
      obtain ⟨task, rest, htasks, hrun⟩ := Config.next_cases hnext hstatus
      have hstate : (task.run setup.watched e.state).2 = c.state := by
        rcases hrun with ⟨advance, hok, -⟩ | ⟨x, herror, -⟩
        · rw [hok]
        · rw [herror]
      rw [← hstate] at hearly
      rcases acts_of_run hearly with holder | ⟨call, handler, s, hcall, hop, hsince⟩
      · exact ih holder he
      · exact ⟨e, task, call, handler, s, ⟨steps, he⟩, ⟨hstatus, rest, htasks⟩, hcall, hop, hsince⟩

end Visits

/-! ## From the moment on -/

theorem Config.starts_of_located {c : Config σ} {loc : Location} (h : c.located? = some loc) :
    ∃ task, c.Runs task ∧ task.Starts setup c.state c.state loc := by
  unfold Config.located? at h
  split at h
  · next statement rest tasks hgoes htasks =>
    exact ⟨.each (statement :: rest), ⟨hgoes, tasks, htasks⟩, .statement h rest⟩
  · cases h

/-- An iteration begins at a boundary. -/
theorem Config.begins {c d : Config σ} (hnext : c.next setup = some d) (hbegun : c.begun < d.begun) :
    ∃ task loc s, c.Runs task ∧ task.Starts setup c.state s loc := by
  obtain ⟨tasks, state, status, begun⟩ := c
  cases tasks with
  | nil => cases hnext
  | cons task rest =>
    cases status with
    | error x =>
      cases hnext
      exact absurd hbegun (Nat.lt_irrefl _)
    | ok _ =>
      cases hrun : task.run setup state with
      | mk answer s' =>
        cases answer with
        | error x =>
          rw [Config.next_of_error hrun] at hnext
          cases hnext
          exact absurd hbegun (Nat.lt_irrefl _)
        | ok advance =>
          rw [Config.next_of_ok hrun] at hnext
          cases hnext
          have hcounts : 0 < advance.begun := by
            simp only at hbegun
            omega
          obtain ⟨loc, more, s, htest, hmore⟩ := Task.test_of_begun hrun hcounts
          exact ⟨task, loc, s, ⟨rfl, rest, rfl⟩, .iteration htest hmore⟩

namespace CancelledFrom

variable {before after : List Contact}

/-- A contact with all the earlier ones before it is a later one. -/
theorem mem_after (h : CancelledFrom setup program journal world before after) {contact : Contact}
    {early : List Contact}
    (hearly : contact :: early <:+
      (Run.program setup.watched program journal (world, [])).2.world.2)
    (hlength : before.length ≤ early.length) : contact ∈ after := by
  have hall := congrArg List.reverse h.contacts
  rw [List.reverse_reverse, List.reverse_append] at hall
  rw [hall] at hearly
  have hbefore : before.reverse <:+ early := by
    have hlast : early <:+ after.reverse ++ before.reverse := (List.suffix_cons ..).trans hearly
    apply List.suffix_of_suffix_length_le (List.suffix_append ..) hlast
    rwa [List.length_reverse]
  obtain ⟨mid, rfl⟩ := hbefore
  obtain ⟨late, hlate⟩ := hearly
  have hsplit : late ++ contact :: mid = after.reverse := by
    rw [← List.cons_append, ← List.append_assoc] at hlate
    exact List.append_cancel_right hlate
  rw [← List.mem_reverse, ← hsplit]
  exact List.mem_append_right _ List.mem_cons_self

/-- A check that is no earlier one fails. -/
theorem answer_eq (h : CancelledFrom setup program journal world before after) {answer : Bool}
    {early : List Contact}
    (hearly : .cancelled answer :: early <:+
      (Run.program setup.watched program journal (world, [])).2.world.2)
    (hlength : before.length ≤ early.length) : answer = true := by
  cases answer with
  | true => rfl
  | false => cases h.set _ (h.mem_after hearly hlength)

/-- The next boundary ends the run. -/
theorem boundary (h : CancelledFrom setup program journal world before after)
    {c : Config (σ × List Contact)} {task : Task} {s : State (σ × List Contact)} {loc : Location}
    (hvisits : Visits setup.watched program journal (world, []) c) (hruns : c.Runs task)
    (hstarts : task.Starts setup.watched c.state s loc)
    (hlength : before.length ≤ s.world.2.length) :
    ∃ d x, c.next setup.watched = some d ∧ d.status = .error x ∧ d.begun = c.begun ∧
      d.state.world.2 = .cancelled true :: s.world.2 ∧ x.kind = .cancelled ∧ x.loc = some loc ∧
      (Run.program setup program journal world).1.outcome = .terminated x := by
  obtain ⟨hgoes, rest, htasks⟩ := hruns
  obtain ⟨d, hnext, hstate, herror⟩ := @Config.next_run _ setup.watched c task rest hgoes htasks
  have hd := hvisits.next hnext
  have hset : (setup.watched.context.cancelled s.world).1 = true := by
    have hasked := hstarts.asked
    rw [polled_contacts rfl, ← hstate] at hasked
    exact h.answer_eq (hasked.trans hd.grown) hlength
  have hstops := hstarts.stops hset
  obtain ⟨hstatus, hbegun⟩ := herror _ _ hstops
  have houtcome : (Run.program setup program journal world).1.outcome = .terminated
      (terminate .cancelled loc [] (s.withOutside (s.outside.polled setup.watched))) := by
    obtain ⟨k, last, hlast, hfinish⟩ := hd.ends
    have hends := Config.error_of_after hlast hstatus
    rw [← (program_watched setup program journal world).1, ← hfinish, hends]
    rfl
  have hcontacts : d.state.world.2 = .cancelled true :: s.world.2 := by
    rw [hstate, hstops]
    exact polled_contacts hset
  exact ⟨d, _, hnext, hstatus, hbegun, hcontacts, rfl, rfl, houtcome⟩

/-- An action is that of a command which has passed its check before. -/
theorem acted (h : CancelledFrom setup program journal world before after) {mid rest : List Contact}
    {op : String} {args : Arguments} {answer : Except Fault (List String)}
    (hafter : after = mid ++ .executed op args answer :: rest) :
    ∃ c task call handler s, Visits setup.watched program journal (world, []) c ∧ c.Runs task ∧
      task.Dispatches setup.watched c.state call handler s ∧ call.name = op ∧
      s.world.2.length < before.length ∧
      Since Contact.isInner (.cancelled false :: s.world.2) (before ++ mid).reverse := by
  have hlog : .executed op args answer :: (before ++ mid).reverse <:+
      (Run.program setup.watched program journal (world, [])).2.world.2 := by
    have hall := congrArg List.reverse h.contacts
    rw [List.reverse_reverse, hafter] at hall
    rw [hall]
    exact ⟨rest.reverse, by simp⟩
  obtain ⟨n, last, hlast, -, hbody⟩ := steps_to_end setup.watched program journal (world, [])
  have hvisits : Visits setup.watched program journal (world, []) last := ⟨n, hlast⟩
  have hacts : .executed op args answer :: (before ++ mid).reverse <:+ last.state.world.2 := by
    rw [Run.program, hbody] at hlog
    exact hlog
  obtain ⟨c, task, call, handler, s, hc, hruns, hcall, hop, hsince⟩ := hvisits.acts hacts
  have hlength : s.world.2.length < before.length := by
    apply Nat.lt_of_not_le
    intro hlate
    have hcheck := hsince.suffix.trans ((List.suffix_cons ..).trans hlog)
    cases h.answer_eq hcheck hlate
  exact ⟨c, task, call, handler, s, hc, hruns, hcall, hop, hlength, hsince⟩

/-- Between the moment and an action there is no other one. -/
theorem not_acted (h : CancelledFrom setup program journal world before after)
    {mid rest : List Contact} {op : String} {args : Arguments}
    {answer : Except Fault (List String)}
    (hafter : after = mid ++ .executed op args answer :: rest) {contact : Contact}
    (hcontact : contact ∈ mid) : contact.isExecuted = false := by
  obtain ⟨_, _, _, _, s, -, -, -, -, hlength, hsince⟩ := h.acted hafter
  cases hexecuted : contact.isExecuted with
  | false => rfl
  | true =>
    have hinner : contact.isInner = false := by
      cases contact <;> first | rfl | cases hexecuted
    obtain ⟨first, second, rfl⟩ := List.append_of_mem hcontact
    have hsuffix : contact :: (before ++ first).reverse <:+
        (before ++ (first ++ contact :: second)).reverse := ⟨second.reverse, by simp⟩
    have hle := (hsince.suffix_of_cons hinner hsuffix).length_le
    simp only [List.length_cons, List.length_reverse, List.length_append] at hle
    omega

/-- No iteration begins. -/
theorem iteration_lt (h : CancelledFrom setup program journal world before after)
    {c d : Config (σ × List Contact)} (hvisits : Visits setup.watched program journal (world, []) c)
    (hnext : c.next setup.watched = some d) (hbegun : c.begun < d.begun) :
    ∃ task loc s, c.Runs task ∧ task.Starts setup.watched c.state s loc ∧
      s.world.2.length < before.length := by
  obtain ⟨task, loc, s, hruns, hstarts⟩ := Config.begins hnext hbegun
  have hlength : s.world.2.length < before.length := by
    apply Nat.lt_of_not_le
    intro hlate
    obtain ⟨e, x, hnext', -, hsame, -⟩ := h.boundary hvisits hruns hstarts hlate
    rw [hnext] at hnext'
    cases hnext'
    omega
  exact ⟨task, loc, s, hruns, hstarts, hlength⟩

theorem acted_le_one (h : CancelledFrom setup program journal world before after) :
    (after.filter Contact.isExecuted).length ≤ 1 := by
  cases hacts : after.filter Contact.isExecuted with
  | nil => exact Nat.zero_le 1
  | cons first others =>
    obtain ⟨start, later, hafter, -, hfirst, hrest⟩ := List.filter_eq_cons_iff.1 hacts
    cases others with
    | nil => exact Nat.le_refl 1
    | cons second more =>
      obtain ⟨mid, last, hlater, -, hsecond, -⟩ := List.filter_eq_cons_iff.1 hrest
      have hsplit : after = (start ++ first :: mid) ++ second :: last := by
        rw [hafter, hlater, List.append_assoc, List.cons_append]
      cases second with
      | executed op args answer =>
        have hidle := h.not_acted hsplit (List.mem_append_right start List.mem_cons_self)
        rw [hidle] at hfirst
        cases hfirst
      | _ => cases hsecond

end CancelledFrom

/-- Cancellation stops a run at the next boundary. From the moment on at which the token is set, and
that may be in between any two contacts: a boundary that the run comes to ends it as cancelled, with
nothing done but the check; no iteration begins; and at most one action is taken, that of a command
which the run dispatches and whose check has been passed before. -/
theorem cancellation_stops_at_next_boundary {before after : List Contact}
    (h : CancelledFrom setup program journal world before after) :
    (∀ c task s loc, Visits setup.watched program journal (world, []) c → c.Runs task →
      task.Starts setup.watched c.state s loc → before.length ≤ s.world.2.length →
        ∃ d x, c.next setup.watched = some d ∧ d.status = .error x ∧ d.begun = c.begun ∧
          d.state.world.2 = .cancelled true :: s.world.2 ∧ x.kind = .cancelled ∧
          x.loc = some loc ∧
          (Run.program setup program journal world).1.outcome = .terminated x) ∧
    (∀ c d, Visits setup.watched program journal (world, []) c → c.next setup.watched = some d →
      c.begun < d.begun → ∃ task loc s, c.Runs task ∧ task.Starts setup.watched c.state s loc ∧
        s.world.2.length < before.length) ∧
    (after.filter Contact.isExecuted).length ≤ 1 ∧
    ∀ mid op args answer rest, after = mid ++ .executed op args answer :: rest →
      ∃ c task call handler s, Visits setup.watched program journal (world, []) c ∧ c.Runs task ∧
        task.Dispatches setup.watched c.state call handler s ∧ call.name = op ∧
        s.world.2.length < before.length ∧
        Since Contact.isInner (.cancelled false :: s.world.2) (before ++ mid).reverse := by
  constructor
  · intro c task s loc hvisits hruns hstarts hlength
    exact h.boundary hvisits hruns hstarts hlength
  · constructor
    · intro c d hvisits hnext hbegun
      exact h.iteration_lt hvisits hnext hbegun
    · constructor
      · exact h.acted_le_one
      · intro mid op args answer rest hafter
        exact h.acted hafter

end

/-- A token that is set while a command checks its arguments: the command still acts, and the next
statement ends the run. -/
theorem cancelled_while_checking :
    let mark : CommandHandler Nat :=
      { validate := fun _ marks => (.ok (), marks + 1)
        execute := fun _ marks => (.ok [], marks) }
    let context : Context Nat :=
      { registry := ⟨Dict.empty.insert "mark" mark, Dict.empty⟩
        probe :=
          { pose := fun marks => (.error (.unavailable ""), marks)
            blockAt := fun _ marks => (.ok none, marks)
            findBlock := fun _ _ _ marks => (.ok none, marks) }
        cancelled := fun marks => (decide (0 < marks), marks) }
    let setup : Setup Nat := ⟨context, {}⟩
    let statement : Statement := .command "mark" [] default
    let program : Program := [statement, statement]
    let contacts := (Run.program setup.watched program default (0, [])).2.world.2.reverse
    CancelledFrom setup program default 0 (contacts.take 3) (contacts.drop 3) ∧
      (contacts.drop 3).map Contact.isExecuted = [false, true, false] ∧
      (∃ c task loc, Visits setup.watched program default (0, []) c ∧ c.Runs task ∧
        task.Starts setup.watched c.state c.state loc ∧ 3 ≤ c.state.world.2.length) ∧
      ∃ x, x.kind = .cancelled ∧
        (Run.program setup program default 0).1.outcome = .terminated x := by
  intro mark context setup statement program contacts
  have hset : CancelledFrom setup program default 0 (contacts.take 3) (contacts.drop 3) := by
    constructor
    · exact (List.take_append_drop 3 contacts).symm
    · decide +kernel
  have hcomes : ((Config.initial program default (0, [])).after setup.watched 2).any (fun c =>
      c.located?.isSome && decide (3 ≤ c.state.world.2.length)) = true := by
    decide +kernel
  obtain ⟨c, hsteps, hsecond⟩ := (Option.any_eq_true ..).1 hcomes
  obtain ⟨hlocated, hlength⟩ := Bool.and_eq_true_iff.1 hsecond
  obtain ⟨loc, hloc⟩ := Option.isSome_iff_exists.1 hlocated
  obtain ⟨task, hruns, hstarts⟩ := Config.starts_of_located hloc
  have hvisits : Visits setup.watched program default (0, []) c := ⟨2, hsteps⟩
  have hbefore : (contacts.take 3).length ≤ c.state.world.2.length :=
    Nat.le_trans (List.length_take_le 3 contacts) (of_decide_eq_true hlength)
  obtain ⟨hboundary, -⟩ := cancellation_stops_at_next_boundary hset
  obtain ⟨_, x, -, -, -, -, hkind, -, houtcome⟩ :=
    hboundary c task c.state loc hvisits hruns hstarts hbefore
  have hacted : (contacts.drop 3).map Contact.isExecuted = [false, true, false] := by
    decide +kernel
  exact ⟨hset, hacted, ⟨c, task, loc, hvisits, hruns, hstarts, of_decide_eq_true hlength⟩, x, hkind,
    houtcome⟩

end Run

end BlockScript
