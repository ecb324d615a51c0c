import BlockScript.Proofs.Run.Bookkeeping
import BlockScript.Proofs.Run.CoveredSteps
import BlockScript.Proofs.Run.Halting

/-!
# Unknown names

Where a run can be terminated for want of a name: in a check of names, or where a macro is called
out of sight of its declaration. Nothing else that is run meets a name that is not known. The
statements are about the machine that runs a program step by step, and about the reports of whole
runs.
-/
namespace BlockScript
set_option autoImplicit false

/-! ## Stores -/

namespace StoredFunction

theorem mem_of_foldl_higher {functions : List StoredFunction} {best : Option StoredFunction}
    {f : StoredFunction} (h : functions.foldl higher best = some f) :
    best = some f ∨ f ∈ functions := by
  induction functions generalizing best with
  | nil => exact .inl h
  | cons function rest ih =>
    rcases ih h with hbest | hrest
    · have hfirst : best = some f ∨ function = f := by
        cases best with
        | none => exact .inr (Option.some.inj hbest)
        | some other =>
          rw [higher] at hbest
          split at hbest
          · exact .inr (Option.some.inj hbest)
          · exact .inl hbest
      rcases hfirst with hold | rfl
      · exact .inl hold
      · exact .inr List.mem_cons_self
    · exact .inr (List.mem_cons_of_mem _ hrest)

theorem latest?_name {name : String} {functions : List StoredFunction} {f : StoredFunction}
    (h : latest? name functions = some f) : f.name = name := by
  rcases mem_of_foldl_higher h with hnone | hmem
  · cases hnone
  · exact of_decide_eq_true (List.mem_filter.1 hmem).2

end StoredFunction

namespace Run

variable {σ : Type} {setup : Setup σ} {program : Program} {journal : Journal} {world : σ}

/-- Files of functions answer by name. -/
theorem answersByName_of_files {directory : String → FileText}
    (h : ∀ name world, setup.context.function setup.options.actor name world =
      (Store.function? directory setup.options.actor name, world)) : AnswersByName setup := by
  intro name world f hanswer
  rw [h] at hanswer
  unfold Store.function? at hanswer
  split at hanswer
  · exact StoredFunction.latest?_name (Except.ok.inj hanswer)
  · cases hanswer

/-- A store that holds nothing. -/
def AnswersNothing (setup : Setup σ) : Prop :=
  ∀ name world, (setup.context.function setup.options.actor name world).1 = .ok none

theorem AnswersNothing.answersByName (h : AnswersNothing setup) : AnswersByName setup := by
  intro name world f hanswer
  rw [h] at hanswer
  cases hanswer

theorem AnswersNothing.not_loaded (h : AnswersNothing setup) {s : State σ}
    (hs : CoveredState setup program s) (name : String) (callee : Callee) :
    ¬ Loaded s.functions name callee := by
  intro hloaded
  obtain ⟨world, f, hanswer, -⟩ := hs.loaded name callee hloaded
  rw [h] at hanswer
  cases hanswer

theorem AnswersNothing.fetch_eq (h : AnswersNothing setup) {s s' : State σ}
    (hs : CoveredState setup program s) {name : String} {loc : Location} {found : Option Callee}
    (hfetch : fetch setup name loc s = (.ok found, s')) : found = none := by
  obtain ⟨honward, hget⟩ := fetch_ok hs hfetch
  cases found with
  | none => rfl
  | some callee => exact absurd hget (h.not_loaded honward.covered name callee)

/-! ## Stops -/

/-- After some steps the run comes to a task that ends it. -/
structure Stop (setup : Setup σ) (program : Program) (journal : Journal) (world : σ) (steps : Nat)
    (config : Config σ) (task : Task) (x : Termination) (s' : State σ) : Prop where
  after : (Config.initial program journal world).after setup steps = some config
  goes : config.status = .ok ()
  tasks : ∃ rest, config.tasks = task :: rest
  ends : task.run setup config.state = (.error x, s')

/-- A machine whose status has become a termination has come to a step that ends it. -/
theorem Config.stop_of_error {c d : Config σ} (hstatus : c.status = .ok ()) {steps : Nat}
    (hafter : c.after setup steps = some d) {x : Termination} (hd : d.status = .error x) :
    ∃ i config task rest s', c.after setup i = some config ∧ config.status = .ok () ∧
      config.tasks = task :: rest ∧ task.run setup config.state = (.error x, s') := by
  induction steps generalizing c with
  | zero =>
    cases hafter
    rw [hstatus] at hd
    cases hd
  | succ steps ih =>
    obtain ⟨e, hnext, hrest⟩ := Option.bind_eq_some_iff.1 hafter
    cases hgoes : e.status with
    | ok _ =>
      obtain ⟨i, config, task, rest, s', hconfig, hfound⟩ := ih hgoes hrest
      refine ⟨i + 1, config, task, rest, s', ?_, hfound⟩
      change (c.next setup).bind _ = some config
      rw [hnext]
      exact hconfig
    | error y =>
      have hsame := error_of_after hrest hgoes
      rw [hd] at hsame
      cases hsame
      obtain ⟨task, rest, htasks, ⟨advance, -, hok, -⟩ | ⟨z, hrun, herror⟩⟩ :=
        next_cases hnext hstatus
      · rw [hgoes] at hok
        cases hok
      · rw [hgoes] at herror
        cases herror
        exact ⟨0, c, task, rest, e.state, rfl, hstatus, htasks, hrun⟩

/-- Every run that is terminated has a stop. -/
theorem stop_of_terminated {x : Termination}
    (h : (Run.program setup program journal world).1.outcome = .terminated x) :
    ∃ steps config task s', Stop setup program journal world steps config task x s' := by
  obtain ⟨s, hbody, -⟩ := body_of_terminated h
  have hready : Ready setup setup.options.maxCallDepth (start journal world) :=
    ⟨Nat.zero_add _, Nat.zero_le _⟩
  obtain ⟨begun, hreaches, -⟩ := whole_completes setup program _ hready []
  rw [hbody] at hreaches
  obtain ⟨steps, hlast, -⟩ := hreaches.steps
  obtain ⟨i, config, task, rest, s', hafter, hstatus, htasks, hrun⟩ :=
    Config.stop_of_error rfl hlast rfl
  exact ⟨i, config, task, s', hafter, hstatus, ⟨rest, htasks⟩, hrun⟩

/-! ## Covered configurations -/

/-- All that is left to do is covered, unless nothing has been done yet. -/
structure Config.Covered (setup : Setup σ) (program : Program) (journal : Journal) (world : σ)
    (c : Config σ) : Prop where
  state : CoveredState setup program c.state
  tasks : c = .initial program journal world ∨
    ∀ task ∈ c.tasks, task.Covered setup program c.state.functions

theorem Config.Covered.initial (setup : Setup σ) (program : Program) (journal : Journal)
    (world : σ) : Config.Covered setup program journal world (.initial program journal world) where
  state := ⟨Env.eachMacro_empty, nofun, nofun⟩
  tasks := .inl rfl

/-- The step that checks the program. -/
theorem whole_ok {s s' : State σ} (hs : CoveredState setup program s) {advance : Advance}
    (h : (Task.whole program).run setup s = (.ok advance, s')) :
    Opened setup program s advance.tasks s' := by
  obtain ⟨_, s₁, hvalid, h⟩ := bind_eq_ok h
  obtain ⟨_, s₂, hhoist, h⟩ := bind_eq_ok h
  cases hhoist
  cases h
  obtain ⟨honward, hcovered⟩ := validate_ok hs (fun name hname => .inl hname) hvalid
  refine ⟨⟨honward.covered.hoisted hcovered, honward.grown⟩, fun task htask => ?_⟩
  rw [List.mem_singleton.1 htask]
  exact ⟨rfl, hcovered⟩

theorem whole_error {s s' : State σ} {x : Termination}
    (h : (Task.whole program).run setup s = (.error x, s')) :
    validate setup program s = (.error x, s') := by
  rw [Task.run] at h
  cases hvalid : validate setup program s with
  | mk answer s₁ =>
    cases answer with
    | error y =>
      rw [bind_error hvalid] at h
      cases h
      rfl
    | ok _ =>
      rw [bind_ok hvalid] at h
      cases h

/-- One step keeps what is covered. -/
theorem Config.Covered.next (hstore : AnswersByName setup) {c d : Config σ}
    (hc : c.Covered setup program journal world) (hgoes : c.status = .ok ())
    (hnext : c.next setup = some d) (hstatus : d.status = .ok ()) :
    d.Covered setup program journal world ∧ Grown c.state.functions d.state.functions := by
  obtain ⟨task, rest, htasks, ⟨advance, hrun, -, hd⟩ | ⟨x, -, herror⟩⟩ :=
    Config.next_cases hnext hgoes
  · rcases hc.tasks with rfl | hcovered
    · cases htasks
      obtain ⟨honward, hopened⟩ := whole_ok hc.state hrun
      refine ⟨⟨honward.covered, .inr fun other hother => ?_⟩, honward.grown⟩
      rw [hd, List.append_nil] at hother
      exact hopened other hother
    · rw [htasks] at hcovered
      have hends := Task.run_ends hstore hc.state (hcovered task List.mem_cons_self)
      obtain ⟨honward, hopened⟩ := hends.ok advance d.state hrun
      refine ⟨⟨honward.covered, .inr fun other hother => ?_⟩, honward.grown⟩
      rw [hd] at hother
      rcases List.mem_append.1 hother with hother | hother
      · exact hopened other hother
      · exact (hcovered other (List.mem_cons_of_mem _ hother)).mono honward.grown
  · rw [hstatus] at herror
    cases herror

/-- Any number of steps keeps what is covered. -/
theorem Config.Covered.after (hstore : AnswersByName setup) {c d : Config σ} {steps : Nat}
    (hc : c.Covered setup program journal world) (hafter : c.after setup steps = some d)
    (hstatus : d.status = .ok ()) :
    d.Covered setup program journal world ∧ Grown c.state.functions d.state.functions := by
  induction steps generalizing c with
  | zero =>
    cases hafter
    exact ⟨hc, .refl _⟩
  | succ steps ih =>
    obtain ⟨e, hnext, hrest⟩ := Option.bind_eq_some_iff.1 hafter
    obtain ⟨he, hgrown⟩ := hc.next hstore (Config.status_of_after hafter hstatus) hnext
      (Config.status_of_after hrest hstatus)
    obtain ⟨hd, hgrown'⟩ := ih he hrest
    exact ⟨hd, fun name callee hloaded => hgrown' name callee (hgrown name callee hloaded)⟩

/-- A stop for want of a name is the check of the program, or a command. -/
theorem Stop.unmet (hstore : AnswersByName setup) {steps : Nat} {config : Config σ} {task : Task}
    {x : Termination} {s' : State σ} (h : Stop setup program journal world steps config task x s')
    (hlacks : x.LacksName) :
    (config = .initial program journal world ∧
      validate setup program config.state = (.error x, s')) ∨
      task.UnmetBy setup program config.state x s' := by
  obtain ⟨rest, htasks⟩ := h.tasks
  obtain ⟨hconfig, -⟩ :=
    (Config.Covered.initial setup program journal world).after hstore h.after h.goes
  rcases hconfig.tasks with rfl | hcovered
  · left
    cases htasks
    exact ⟨rfl, whole_error h.ends⟩
  · right
    rw [htasks] at hcovered
    have hends := Task.run_ends hstore hconfig.state (hcovered task List.mem_cons_self)
    exact hends.error x s' h.ends hlacks

/-- A name that has been loaded is found by every later lookup. -/
theorem not_loaded_of_fetch {s s' : State σ} (hs : CoveredState setup program s) {name : String}
    {loc : Location} (hfetch : fetch setup name loc s = (.ok none, s'))
    {functions : Dict (Option Callee)} (hgrown : Grown functions s.functions) (callee : Callee) :
    ¬ Loaded functions name callee := by
  intro hloaded
  obtain ⟨honward, hget⟩ := fetch_ok hs hfetch
  have hstays := honward.grown name callee (hgrown name callee hloaded)
  unfold Loaded at hstays
  rw [hget] at hstays
  cases hstays

/-! ## Runs step by step -/

/-- Checks cover what is run. Once the program has been checked, every predicate in what is left to
do can be evaluated. A run that is terminated comes to a stop, and a stop for an unknown name is the
check of the program, the check of a function's body at its first call, or else the end of the
search for a command: then the name is the name of a macro that the program or a loaded function
declares, and neither a handler nor a function that has ever been loaded has this name. -/
theorem checks_cover_runs (hstore : AnswersByName setup) :
    (∀ steps config, (Config.initial program journal world).after setup steps = some config →
      config.status = .ok () →
      config = .initial program journal world ∨
        ∀ task ∈ config.tasks, ∀ call ∈ task.calls, call.isPredicate = true →
          Judges setup call.name) ∧
    (∀ x, (Run.program setup program journal world).1.outcome = .terminated x →
      ∃ steps config task s', Stop setup program journal world steps config task x s') ∧
    ∀ steps config task x s' (halt : Halt),
      Stop setup program journal world steps config task x s' →
      halt.isUnknown = true → x.Tells halt →
      (config = .initial program journal world ∧
        validate setup program config.state = (.error x, s')) ∨
      ∃ (command : CommandCall) (more : List Statement) (s₁ : State σ),
        task = .each (.command command.name command.args command.loc :: more) ∧
        checkLocated setup (.command command.name command.args command.loc) config.state =
          (.ok (), s₁) ∧
        ((∃ callee s₂, fetch setup command.name command.loc s₁ = (.ok (some callee), s₂) ∧
            FailsCheck setup command callee s₂ x s') ∨
          (halt = .unknownCommand command.name ∧ FindsNothing setup command s₁ s' ∧
            Declares program s'.functions command.name ∧
            ∀ i ≤ steps, ∀ earlier,
              (Config.initial program journal world).after setup i = some earlier →
              ∀ callee, ¬ Loaded earlier.state.functions command.name callee)) := by
  have hinitial := Config.Covered.initial setup program journal world
  refine ⟨?_, fun x hx => stop_of_terminated hx, ?_⟩
  · intro steps config hafter hstatus
    obtain ⟨hconfig, -⟩ := hinitial.after hstore hafter hstatus
    exact hconfig.tasks.imp_right fun hall task htask => (hall task htask).code.judgesAll
  · intro steps config task x s' halt hstop hunknown htells
    refine (hstop.unmet hstore ⟨halt, hunknown, htells⟩).imp_right ?_
    rintro ⟨statement, more, s₁, rfl, hlocated, command, rfl, hunmet⟩
    refine ⟨command, more, s₁, rfl, hlocated, ?_⟩
    cases hunmet with
    | body hnone hhandler hfetch hfails => exact .inl ⟨_, _, hfetch, hfails⟩
    | search hnothing hx hdeclared =>
      subst hx
      have hsame : Halt.unknownCommand command.name = halt :=
        Halt.eq_of_message rfl hunknown htells.2
      refine .inr ⟨hsame.symm, hnothing, hdeclared, ?_⟩
      intro i hi earlier hearlier
      obtain ⟨hconfig, -⟩ := hinitial.after hstore hstop.after hstop.goes
      have honward := hconfig.state.aside (.checkLocated setup _) hlocated
      refine not_loaded_of_fetch honward.covered hnothing.noFunction ?_
      -- From the earlier configuration the machine goes on to this one.
      obtain ⟨later, rfl⟩ := Nat.exists_eq_add_of_le hi
      have hafter := hstop.after
      rw [Config.after_add, hearlier] at hafter
      have hgoes : earlier.status = .ok () := Config.status_of_after hafter hstop.goes
      obtain ⟨hcovered, -⟩ := hinitial.after hstore hearlier hgoes
      obtain ⟨-, hgrown⟩ := hcovered.after hstore hafter hstop.goes
      intro name callee hloaded
      exact honward.grown name callee (hgrown name callee hloaded)

/-- A macro that is called after the block that declares it, with a store that has no file. -/
theorem checks_cover_runs_hidden_declaration :
    let context : Context Unit :=
      { registry := ⟨Dict.empty, Dict.empty⟩
        probe :=
          { pose := fun world => (.error (.unavailable ""), world)
            blockAt := fun _ world => (.ok none, world)
            findBlock := fun _ _ _ world => (.ok none, world) }
        function := fun actor name world =>
          (Store.function? (fun _ => .missing) actor name, world) }
    let setup : Setup Unit := ⟨context, {}⟩
    let foo : Statement := .command "foo" [] default
    let program : Program := [.block ⟨[.define "foo" [] ⟨[], default⟩ default], default⟩, foo]
    ∃ config x s',
      Stop setup program default () 5 config (.each [foo]) x s' ∧
      x.Tells (.unknownCommand "foo") ∧
      Declares program s'.functions "foo" := by
  intro context setup foo program
  have hstore : AnswersByName setup := answersByName_of_files fun _ _ => rfl
  obtain ⟨config, hafter⟩ :
      ∃ config, (Config.initial program default ()).after setup 5 = some config := ⟨_, rfl⟩
  obtain ⟨x, s', hstop, htells⟩ : ∃ x s',
      Stop setup program default () 5 config (.each [foo]) x s' ∧
        x.Tells (.unknownCommand "foo") := by
    obtain rfl := Option.some.inj hafter
    exact ⟨_, _, ⟨rfl, rfl, ⟨_, rfl⟩, rfl⟩, rfl, rfl⟩
  refine ⟨config, x, s', hstop, htells, ?_⟩
  obtain ⟨-, -, hstops⟩ := checks_cover_runs hstore
  rcases hstops 5 config _ x s' _ hstop rfl htells with
    ⟨hinitial, -⟩ | ⟨⟨name, args, loc⟩, more, s₁, htask, hlocated, hend⟩
  · obtain ⟨rest, htasks⟩ := hstop.tasks
    rw [hinitial] at htasks
    cases htasks
  · obtain ⟨hcommand, -⟩ := List.cons.inj (Task.each.inj htask)
    obtain ⟨rfl, rfl, rfl⟩ := Statement.command.inj hcommand
    rcases hend with ⟨callee, s₂, hfetch, -⟩ | ⟨-, -, hdeclared, -⟩
    · have hcovered :=
        (Config.Covered.initial setup program default ()).after hstore hafter hstop.goes
      have honward := hcovered.1.state.aside (.checkLocated setup _) hlocated
      have hnothing : AnswersNothing setup := fun _ _ => rfl
      cases hnothing.fetch_eq honward.covered hfetch
    · exact hdeclared

/-! ## Whole runs -/

/-- A step that keeps no result. -/
def Unrecorded {α : Type} (m : Run σ α) : Prop := ∀ s, (m s).2.results = s.results

namespace Unrecorded

variable {α β : Type}

theorem pure (a : α) : Unrecorded (Pure.pure a : Run σ α) := fun _ => rfl

theorem bind {m : Run σ α} {k : α → Run σ β} (hm : Unrecorded m) (hk : ∀ a, Unrecorded (k a)) :
    Unrecorded (m >>= k) := by
  intro s
  have hfirst := hm s
  cases hs : m s with
  | mk answer s₁ =>
    rw [hs] at hfirst
    cases answer with
    | error x =>
      rw [bind_error hs]
      exact hfirst
    | ok a =>
      rw [bind_ok hs]
      exact (hk a s₁).trans hfirst

theorem fail (halt : Halt) (loc : Location) : Unrecorded (Run.fail halt loc : Run σ α) :=
  fun _ => rfl

theorem fetch (setup : Setup σ) (name : String) (loc : Location) :
    Unrecorded (Run.fetch setup name loc) := by
  refine .bind (fun _ => rfl) fun known => ?_
  cases known with
  | some callee => exact .pure callee
  | none =>
    refine .bind (fun _ => rfl) fun answer => ?_
    cases answer with
    | error e => exact .fail _ loc
    | ok found =>
      have hloaded : Unrecorded (Run.loadFound loc found : Run σ (Option Callee)) :=
        fun s => congrArg State.results (Still.loadFound loc found s)
      exact .bind hloaded fun callee => .bind (fun _ => rfl) fun _ => .pure callee

theorem checkCalls (setup : Setup σ) (declared : List String) (calls : List Call) :
    Unrecorded (Run.checkCalls setup declared calls) := by
  induction calls with
  | nil => exact .pure ()
  | cons call rest ih =>
    have hknown : Unrecorded (Run.isKnown setup declared call) := by
      unfold Run.isKnown
      split
      · exact .pure _
      · refine .bind (fun _ => rfl) fun found => ?_
        split
        · exact .pure _
        · exact .bind (.fetch setup _ _) fun _ => .pure _
    refine .bind hknown fun known => ?_
    cases known with
    | true => exact ih
    | false => exact .fail _ _

end Unrecorded

/-- A run that has no result has called no command. -/
theorem no_command_of_no_result (h : (Run.program setup program journal world).1.results = []) :
    (Run.program setup.watched program journal (world, [])).2.world.2.filter Contact.isCommand =
      [] := by
  have hstart := Books.atStart setup.options.opLimit journal world
  obtain ⟨answer, s, t, hrun, hseen, events, hmirrors, hbooks⟩ :=
    watched_body journal (Books.keeps setup) program world hstart
  dsimp only [Run.program] at h ⊢
  rw [hrun] at h
  rw [hseen]
  have hnone : t.results.reverse = [] := by
    rw [← show s.results = t.results from hmirrors.results]
    exact h
  obtain ⟨parts, hfst, -, hsnd⟩ := hbooks.accounts
  rw [show t.outside.results.reverse = [] from hnone, List.map_eq_nil_iff] at hfst
  subst hfst
  rw [List.filter_reverse] at hsnd
  exact List.reverse_eq_nil_iff.1 hsnd.symm

/-- With an empty store, a run that ends for an unknown name is ended by the check of the program,
or by a call of a macro out of sight of its declaration. -/
theorem validate_of_unknown (hempty : AnswersNothing setup) {x : Termination}
    (hx : (Run.program setup program journal world).1.outcome = .terminated x) {halt : Halt}
    (hunknown : halt.isUnknown = true) (htells : x.Tells halt) :
    (∃ s, validate setup program (start journal world) = (.error x, s) ∧
      (Run.program setup program journal world).1.results = s.results.reverse) ∨
      ∃ name ∈ Program.declared program, halt = .unknownCommand name := by
  obtain ⟨steps, config, task, s', hstop⟩ := stop_of_terminated hx
  rcases hstop.unmet hempty.answersByName ⟨halt, hunknown, htells⟩ with
    ⟨rfl, hvalid⟩ | ⟨statement, more, s₁, -, hlocated, command, -, hunmet⟩
  · left
    obtain ⟨s, hbody, hresults⟩ := body_of_terminated hx
    have hsame : body setup program (start journal world) = (.error x, s') := bind_error hvalid
    rw [hbody] at hsame
    cases hsame
    exact ⟨_, hvalid, hresults⟩
  · right
    obtain ⟨hconfig, -⟩ := (Config.Covered.initial setup program journal world).after
      hempty.answersByName hstop.after hstop.goes
    have honward := hconfig.state.aside (.checkLocated setup statement) hlocated
    cases hunmet with
    | body hnone hhandler hfetch hfails => cases hempty.fetch_eq honward.covered hfetch
    | search hnothing hlast hdeclared =>
      subst hlast
      have hsame : Halt.unknownCommand command.name = halt :=
        Halt.eq_of_message rfl hunknown htells.2
      obtain ⟨hfetched, -⟩ := fetch_ok honward.covered hnothing.noFunction
      rcases hdeclared with hname | ⟨key, callee, hloaded, -⟩
      · exact ⟨command.name, hname, hsame.symm⟩
      · exact absurd hloaded (hempty.not_loaded hfetched.covered key callee)

/-- With an empty store of functions, a run that ends for an unknown name has no result and has
called no command, unless the name is that of a macro which the program declares somewhere. -/
theorem unknown_names_stop_early (hempty : AnswersNothing setup) {x : Termination}
    (hx : (Run.program setup program journal world).1.outcome = .terminated x)
    {halt : Halt} (hunknown : halt.isUnknown = true) (htells : x.Tells halt)
    (hhidden : ∀ name ∈ Program.declared program, halt ≠ .unknownCommand name) :
    (Run.program setup program journal world).1.results = [] ∧
      (Run.program setup.watched program journal (world, [])).2.world.2.filter
        Contact.isCommand = [] := by
  have hresults : (Run.program setup program journal world).1.results = [] := by
    rcases validate_of_unknown hempty hx hunknown htells with
      ⟨s, hvalid, hresults⟩ | ⟨name, hname, hsame⟩
    · have hunrecorded := Unrecorded.checkCalls setup (Program.declared program)
        (Program.calls program) (start journal world)
      rw [show checkCalls setup _ _ _ = (.error x, s) from hvalid] at hunrecorded
      rw [hresults, hunrecorded]
      rfl
    · exact absurd hsame (hhidden name hname)
  exact ⟨hresults, no_command_of_no_result hresults⟩

/-- The body of a macro that is never called has an unknown name: no command is run. -/
theorem unknown_names_stop_early_in_macro :
    let mark : CommandHandler Nat := { execute := fun _ marks => (.ok [], marks + 1) }
    let context : Context Nat :=
      { registry := ⟨Dict.empty.insert "mark" mark, Dict.empty⟩
        probe :=
          { pose := fun marks => (.error (.unavailable ""), marks)
            blockAt := fun _ marks => (.ok none, marks)
            findBlock := fun _ _ _ marks => (.ok none, marks) } }
    let setup : Setup Nat := ⟨context, {}⟩
    let nowhere : Statement := .command "nowhere" [] default
    let program : Program :=
      [.command "mark" [] default, .define "foo" [] ⟨[nowhere], default⟩ default]
    ∃ x, (Run.program setup program default 0).1.outcome = .terminated x ∧
      x.Tells (.unknownCommand "nowhere") ∧
      (Run.program setup program default 0).1.results = [] := by
  intro mark context setup nowhere program
  obtain ⟨x, hx, htells⟩ : ∃ x, (Run.program setup program default 0).1.outcome = .terminated x ∧
      x.Tells (.unknownCommand "nowhere") := ⟨_, rfl, rfl, rfl⟩
  have hhidden : ∀ name ∈ Program.declared program,
      Halt.unknownCommand "nowhere" ≠ .unknownCommand name := by
    decide +kernel
  obtain ⟨hresults, -⟩ :=
    unknown_names_stop_early (fun _ _ => rfl : AnswersNothing setup) hx rfl htells hhidden
  exact ⟨x, hx, htells, hresults⟩

/-- A macro called after the block that declares it: the check takes its name, so the command before
the call has been run when the name turns out to be unknown. -/
theorem hidden_macro_stops_late :
    let mark : CommandHandler Nat := { execute := fun _ marks => (.ok [], marks + 1) }
    let context : Context Nat :=
      { registry := ⟨Dict.empty.insert "mark" mark, Dict.empty⟩
        probe :=
          { pose := fun marks => (.error (.unavailable ""), marks)
            blockAt := fun _ marks => (.ok none, marks)
            findBlock := fun _ _ _ marks => (.ok none, marks) } }
    let setup : Setup Nat := ⟨context, {}⟩
    let program : Program :=
      [.block ⟨[.define "foo" [] ⟨[], default⟩ default], default⟩, .command "mark" [] default,
        .command "foo" [] default]
    AnswersNothing setup ∧
      (∃ x, (Run.program setup program default 0).1.outcome = .terminated x ∧
        x.Tells (.unknownCommand "foo")) ∧
      (Run.program setup program default 0).1.results.length = 1 ∧
      (Run.program setup program default 0).2.world = 1 := by
  intro mark context setup program
  have houtcome : (Run.program setup program default 0).1.outcome = .terminated
      { kind := .scope, message := "unknown command 'foo'", loc := some default,
        lastOpIndex := some 0, op := some "mark", notes := [], stamp := default } := by
    decide +kernel
  refine ⟨fun _ _ => rfl, ⟨_, houtcome, rfl, rfl⟩, ?_, ?_⟩
  · decide +kernel
  · decide +kernel

end Run

end BlockScript
