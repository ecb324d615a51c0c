import BlockScript.Proofs.Run.Coverage

/-!
# Steps of covered runs

What a step leaves to do is covered if what it was to do is covered, and so are the macros that come
in sight. A step that ends for want of a name is a command: the check of a function's body fails, or
the search comes to its end at the name of a macro that is declared somewhere else.
-/
namespace BlockScript
set_option autoImplicit false

namespace Run

variable {σ α : Type} {setup : Setup σ} {program : Program} {s s' : State σ}

/-! ## Opening -/

theorem calls_ofBody (body : Body Statement) :
    Calls.ofBody body = Program.calls body.statements := by
  cases body
  rfl

theorem declared_ofBody (body : Body Statement) :
    Declared.ofBody body = Program.declared body.statements := by
  cases body
  rfl

theorem Task.Covered.closeScope {functions : Dict (Option Callee)} :
    Task.closeScope.Covered setup program functions := ⟨rfl, nofun, nofun⟩

theorem Task.Covered.closeFrame {functions : Dict (Option Callee)} :
    Task.closeFrame.Covered setup program functions := ⟨rfl, nofun, nofun⟩

theorem Covered.ofMacro {functions : Dict (Option Callee)} {statements : List Statement}
    (h : Covered setup program functions (Program.calls statements) (Program.declared statements))
    {m : Macro} (hm : m ∈ statements.filterMap Statement.macro?) :
    Declares program functions m.name ∧
      Covered setup program functions (Calls.ofBody m.body) (Declared.ofBody m.body) := by
  induction statements with
  | nil => cases hm
  | cons statement rest ih =>
    rcases List.mem_filterMap.1 hm with ⟨other, hother, hdefines⟩
    rcases List.mem_cons.1 hother with rfl | hrest
    · have hstatement := Covered.left h
      cases other with
      | define name params body loc =>
        cases hdefines
        exact ⟨hstatement.declared name List.mem_cons_self, hstatement.calls,
          fun inner hinner => hstatement.declared inner (List.mem_cons_of_mem _ hinner)⟩
      | _ => cases hdefines
    · exact ih (Covered.right h) (List.mem_filterMap.2 ⟨other, hrest, hdefines⟩)

/-- The state in which the macros of a list of statements are known. -/
theorem CoveredState.hoisted (hs : CoveredState setup program s) {statements : List Statement}
    (h : Covered setup program s.functions (Program.calls statements)
      (Program.declared statements)) :
    CoveredState setup program
      { s with env := (statements.filterMap Statement.macro?).foldl Env.define s.env } :=
  { hs with macros := hs.macros.defineAll fun _ hm => h.ofMacro hm }

/-- Something has been opened, and what it leaves to do is covered. -/
def Opened (setup : Setup σ) (program : Program) (s : State σ) (tasks : List Task)
    (s' : State σ) : Prop :=
  Onward setup program s s' ∧ ∀ task ∈ tasks, task.Covered setup program s'.functions

theorem Opened.trans {s'' : State σ} {tasks : List Task} (h : Onward setup program s s')
    (hopened : Opened setup program s' tasks s'') : Opened setup program s tasks s'' :=
  ⟨h.trans hopened.1, hopened.2⟩

theorem Onward.nothing (h : Onward setup program s s') : Opened setup program s [] s' :=
  ⟨h, fun _ htask => absurd htask List.not_mem_nil⟩

/-- A step aside, and then something is opened. -/
theorem Ends.aside_bind (hs : CoveredState setup program s) {m : Run σ α} (haside : Aside m)
    (hknowing : Knowing m) {k : α → Run σ (List Task)} {R : Termination → State σ → Prop}
    (hk : ∀ a s', m s = (.ok a, s') → CoveredState setup program s' → s'.functions = s.functions →
      Ends (k a) s' (Opened setup program s') (fun x t => x.LacksName → R x t)) :
    Ends (m >>= k) s (Opened setup program s) (fun x t => x.LacksName → R x t) := by
  refine .bind (.aside hs haside hknowing) ?_
  rintro a s' hok ⟨honward, hsame⟩
  exact (hk a s' hok honward.covered hsame).imp (fun _ _ hopened => .trans honward hopened)
    fun _ _ h => h

variable {E : Termination → State σ → Prop}

theorem openBody_ends (hs : CoveredState setup program s) {body : Body Statement}
    (h : Covered setup program s.functions (Calls.ofBody body) (Declared.ofBody body)) :
    Ends (openBody body) s (Opened setup program s) E := by
  obtain ⟨statements, loc⟩ := body
  have hpushed : CoveredState setup program { s with env := s.env.push } :=
    { hs with macros := hs.macros.opened false }
  refine .modify_bind (.modify_bind (.pure ⟨⟨hpushed.hoisted h, .refl _⟩, ?_⟩))
  intro task htask
  rcases List.mem_cons.1 htask with rfl | htask
  · exact ⟨rfl, h⟩
  · rw [List.mem_singleton.1 htask]
    exact .closeScope

theorem openRound_ends (hs : CoveredState setup program s) (name : String) (value : Int64)
    {body : Body Statement}
    (h : Covered setup program s.functions (Calls.ofBody body) (Declared.ofBody body)) :
    Ends (openRound name value body) s (Opened setup program s) E := by
  have hscope : CoveredState setup program
      { s with env := (s.env.push).declare name (.int value) } :=
    { hs with macros := (hs.macros.opened false).declareAll [(name, .int value)] }
  refine .modify_bind (.modify_bind (.bind (openBody_ends hscope h) ?_))
  rintro tasks s₁ - ⟨honward, htasks⟩
  refine .pure ⟨⟨honward.covered, honward.grown⟩, fun task htask => ?_⟩
  rcases List.mem_append.1 htask with htask | htask
  · exact htasks task htask
  · rw [List.mem_singleton.1 htask]
    exact .closeScope

theorem openFrame_ends (hs : CoveredState setup program s) (bound : List (String × Value))
    {statements : List Statement}
    (h : Covered setup program s.functions (Program.calls statements)
      (Program.declared statements)) :
    Ends (openFrame bound statements) s (Opened setup program s) E := by
  have hframe : CoveredState setup program
      { s with
        env := bound.foldl (fun env binding => env.declare binding.1 binding.2) s.env.pushFrame
        depth := s.depth + 1 } :=
    { hs with macros := (hs.macros.opened true).declareAll bound }
  refine .modify_bind (.modify_bind (.pure ⟨⟨hframe.hoisted h, .refl _⟩, ?_⟩))
  intro task htask
  rcases List.mem_cons.1 htask with rfl | htask
  · exact ⟨rfl, h⟩
  · rw [List.mem_singleton.1 htask]
    exact .closeFrame

/-! ## Calls -/

/-- The first call of a function binds the arguments and then checks the body, which fails. -/
def FailsCheck (setup : Setup σ) (command : CommandCall) (callee : Callee) (s : State σ)
    (x : Termination) (s' : State σ) : Prop :=
  ∃ bound s₁ name,
    bindArgs setup command.name command.loc callee.params command.args s = (.ok bound, s₁) ∧
    callee.stored = some name ∧ s₁.validated.contains name = false ∧
    validate setup callee.body s₁ = (.error x, s')

theorem openCall_ends (hs : CoveredState setup program s) {command : CommandCall}
    (hargs : JudgesAll setup (Calls.ofArgs command.args)) {callee : Callee}
    (hcallee : Callable setup program s.functions callee) :
    Ends (openCall setup command callee) s (Opened setup program s)
      (fun x s' => x.LacksName → FailsCheck setup command callee s x s') := by
  have hknows := Knowing.elementary setup
  refine .read_bind ?_
  split
  · exact .refused rfl
  · refine .aside_bind hs (.bindArgs setup _ _ _ _) (hknows.bindArgs _ _ _ hargs) ?_
    intro bound s₁ hbound hs₁ hsame
    have hcheck := validateOnce_ends hs₁ (hsame ▸ hcallee)
    refine .bind (hcheck.imp (fun _ _ h => h) ?_) ?_
    · rintro x s' ⟨name, hstored, hfirst, herror⟩ -
      exact ⟨bound, s₁, name, hbound, hstored, hfirst, herror⟩
    · rintro _ s₂ - ⟨honward, hcovered⟩
      have hentered : Ends (trace setup command.loc (.macroEntered command.name (s₂.depth + 1)) >>=
          fun _ => openFrame bound callee.body) s₂ (Opened setup program s₂)
          (fun x s' => x.LacksName → FailsCheck setup command callee s x s') := by
        refine .aside_bind honward.covered (.trace setup _ _) (hknows.trace _ _) ?_
        intro _ s₃ _ hs₃ hsame'
        exact openFrame_ends hs₃ bound (hsame' ▸ hcovered)
      exact .read_bind (hentered.imp (fun _ _ hopened => .trans honward hopened) fun _ _ h => h)

/-- The search for a command comes to its end: there is no macro in sight, no handler and no stored
function of that name. -/
structure FindsNothing (setup : Setup σ) (command : CommandCall) (s s' : State σ) : Prop where
  noMacro : s.env.findMacro? command.name = none
  noHandler : setup.context.registry.command? command.name = none
  noFunction : fetch setup command.name command.loc s = (.ok none, s')

/-- The ways in which a command ends a run for want of a name. -/
inductive Unmet (setup : Setup σ) (program : Program) (command : CommandCall) (s : State σ)
    (x : Termination) (s' : State σ) : Prop where
  /-- A function is called for the first time, and its body does not pass. -/
  | body {callee : Callee} {s₁ : State σ} (hnone : s.env.findMacro? command.name = none)
    (hhandler : setup.context.registry.command? command.name = none)
    (hfetch : fetch setup command.name command.loc s = (.ok (some callee), s₁))
    (h : FailsCheck setup command callee s₁ x s')
  /-- Nothing is found, and the name is one that some macro is declared by. -/
  | search (h : FindsNothing setup command s s')
    (hx : x = terminate (.unknownCommand command.name) command.loc [] s')
    (hdeclared : Declares program s'.functions command.name)

/-- A store that answers with functions of the name it is asked for. -/
def AnswersByName (setup : Setup σ) : Prop :=
  ∀ name world f,
    (setup.context.function setup.options.actor name world).1 = .ok (some f) → f.name = name

theorem CoveredState.callable (hstore : AnswersByName setup) (hs : CoveredState setup program s)
    {name : String} {callee : Callee} (h : Loaded s.functions name callee) :
    Callable setup program s.functions callee := by
  obtain ⟨world, f, hanswer, hstored⟩ := hs.loaded name callee h
  rw [hstore name world f hanswer] at hstored
  exact .loaded hstored h

theorem openCommand_ends (hstore : AnswersByName setup) (hs : CoveredState setup program s)
    (command : CommandCall)
    (h : Covered setup program s.functions
      (⟨command.name, command.loc, false⟩ :: Calls.ofArgs command.args) []) :
    Ends (openCommand setup command) s (Opened setup program s)
      (fun x s' => x.LacksName → Unmet setup program command s x s') := by
  have hname : Declares program s.functions command.name ∨
      setup.context.registry.hasCommand command.name = true ∨
        ∃ callee, Loaded s.functions command.name callee :=
    h.calls ⟨command.name, command.loc, false⟩ List.mem_cons_self
  have hargs : JudgesAll setup (Calls.ofArgs command.args) := (judgesAll_cons.1 h.judgesAll).2
  have hknows := Knowing.elementary setup
  refine .read_bind ?_
  cases hfound : s.env.findMacro? command.name with
  | some m =>
    have hcovered := (hs.macros.found hfound).2
    rw [calls_ofBody, declared_ofBody] at hcovered
    have hcallable : Callable setup program s.functions (Callee.ofMacro m) := .covered rfl hcovered
    refine (openCall_ends hs hargs hcallable).imp (fun _ _ h => h) ?_
    -- A macro has no body of its own to check.
    intro x s' hfails hlacks
    obtain ⟨bound, s₁, name, -, hstored, -⟩ := hfails hlacks
    cases hstored
  | none =>
    dsimp only
    cases hhandler : setup.context.registry.command? command.name with
    | some handler =>
      refine .aside_bind hs (.dispatch setup command handler) (hknows.dispatch hargs handler) ?_
      intro _ s₁ _ hs₁ _
      exact .pure hs₁.onward.nothing
    | none =>
      have hfetch : Ends (fetch setup command.name command.loc) s
          (fun found s' => Onward setup program s s' ∧
            s'.functions.get? command.name = some found)
          (fun x s' => x.LacksName → Unmet setup program command s x s') := by
        refine ⟨fun found s' => fetch_ok hs, ?_⟩
        rintro x s' herror ⟨halt, hunknown, htells⟩
        exact absurd htells (hknows.fetch _ _ s x s' herror halt hunknown)
      refine .bind hfetch ?_
      rintro found s₁ hok ⟨honward, hget⟩
      cases found with
      | some callee =>
        have hcallable := honward.covered.callable hstore hget
        refine (openCall_ends honward.covered hargs hcallable).imp ?_ ?_
        · exact fun tasks s' hopened => .trans honward hopened
        · exact fun x s' hfails hlacks => .body hfound hhandler hok (hfails hlacks)
      | none =>
        refine .fail fun _ => .search ⟨hfound, hhandler, hok⟩ rfl ?_
        rcases hname with hdeclared | hregistered | ⟨callee, hloaded⟩
        · exact hdeclared.mono honward.grown
        · have hmissing : setup.context.registry.hasCommand command.name = false :=
            congrArg Option.isSome hhandler
          rw [hmissing] at hregistered
          cases hregistered
        · have hstays := honward.grown _ callee hloaded
          unfold Loaded at hstays
          rw [hget] at hstays
          cases hstays

/-! ## Statements -/

theorem Covered.ofParts {functions : Dict (Option Callee)} {calls : List Call}
    {declared : List String} (h : Covered setup program functions calls declared)
    {part : List Call} {names : List String} (hcalls : part ⊆ calls) (hnames : names ⊆ declared) :
    Covered setup program functions part names :=
  ⟨fun call hcall => h.calls call (hcalls hcall), fun name hname => h.declared name (hnames hname)⟩

theorem bindVariable_ends (hs : CoveredState setup program s) (name : String) (loc : Location)
    (value : Value) {R : Termination → State σ → Prop} :
    Ends (bindVariable setup name loc value) s (fun _ s' => Onward setup program s s')
      (fun x s' => x.LacksName → R x s') := by
  refine .bind (.aside hs (.trace setup loc _) ((Knowing.elementary setup).trace loc _)) ?_
  rintro _ s₁ - ⟨honward, -⟩
  refine .modify ⟨{ honward.covered with macros := ?_ }, honward.grown⟩
  exact honward.covered.macros.declareAll [(name, value)]

theorem assignVariable_ends (hs : CoveredState setup program s) (name : String) (loc : Location)
    (value : Value) {R : Termination → State σ → Prop} :
    Ends (assignVariable setup name loc value) s (fun _ s' => Onward setup program s s')
      (fun x s' => x.LacksName → R x s') := by
  have hassign : Ends (assign name value) s (fun _ s' => Onward setup program s s')
      (fun x s' => x.LacksName → R x s') := by
    unfold assign
    cases henv : s.env.assign? name value with
    | none =>
      refine ⟨?_, ?_⟩
      · rintro _ s' h
        rw [henv] at h
        cases h
        exact hs.onward
      · intro x s' h
        rw [henv] at h
        cases h
    | some env =>
      have hmacros := hs.macros
      unfold Env.EachMacro at hmacros
      rw [← Env.macroLevels_assign? henv] at hmacros
      refine ⟨?_, ?_⟩
      · rintro _ s' h
        rw [henv] at h
        cases h
        exact ⟨{ hs with macros := hmacros }, .refl _⟩
      · intro x s' h
        rw [henv] at h
        cases h
  refine .bind hassign ?_
  rintro found s₁ - honward
  cases found with
  | true =>
    have hknowing := (Knowing.elementary setup).trace loc (.variableBound name value.render)
    exact (Ends.aside honward.covered (.trace setup loc _) hknowing).imp
      (fun _ _ htraced => honward.trans htraced.1) fun _ _ h => h
  | false => exact .refused rfl

/-- What a statement may end a run with for want of a name; only a command may. -/
def UnmetBy (setup : Setup σ) (program : Program) (statement : Statement) (s : State σ)
    (x : Termination) (s' : State σ) : Prop :=
  ∃ command : CommandCall, statement = .command command.name command.args command.loc ∧
    Unmet setup program command s x s'

theorem openStatement_ends (hstore : AnswersByName setup) (hs : CoveredState setup program s)
    {statement : Statement}
    (h : Covered setup program s.functions (Calls.ofStatement statement)
      (Declared.ofStatement statement)) :
    Ends (openStatement setup statement) s (Opened setup program s)
      (fun x s' => x.LacksName → UnmetBy setup program statement s x s') := by
  have hknows := Knowing.elementary setup
  cases statement with
  | define name params body loc => exact .pure hs.onward.nothing
  | empty => exact .pure hs.onward.nothing
  | cond test yes no loc =>
    rw [Calls.ofStatement, Declared.ofStatement, List.append_assoc] at h
    have htest := (judgesAll_append.1 h.judgesAll).1
    have hbodies := h.ofParts (List.subset_append_right _ _) (List.Subset.refl _)
    refine .aside_bind hs (.evalCondition setup test) (hknows.evalCondition htest) ?_
    intro taken s₁ _ hs₁ hsame
    refine .aside_bind hs₁ (.trace setup _ _) (hknows.trace _ _) ?_
    intro _ s₂ _ hs₂ hsame'
    rw [← hsame, ← hsame'] at hbodies
    split
    · exact openBody_ends hs₂ hbodies.left
    · cases no with
      | none => exact .pure hs₂.onward.nothing
      | some body => exact openBody_ends hs₂ hbodies.right
  | repeatCount count body loc =>
    rw [Calls.ofStatement, Declared.ofStatement] at h
    have hcount := (judgesAll_append.1 h.judgesAll).1
    have hbody := h.ofParts (List.subset_append_right _ _) (List.Subset.refl _)
    refine .aside_bind hs (.evalInt setup _ count) (hknows.evalInt _ hcount) ?_
    intro n s₁ _ hs₁ hsame
    refine .pure ⟨hs₁.onward, fun task htask => ?_⟩
    rw [List.mem_singleton.1 htask]
    exact ⟨rfl, hsame ▸ hbody⟩
  | repeatRange name start stop step body loc =>
    rw [Calls.ofStatement, Declared.ofStatement] at h
    have hbody := h.ofParts (List.subset_append_right _ _) (List.Subset.refl _)
    obtain ⟨hrest, -⟩ := judgesAll_append.1 h.judgesAll
    obtain ⟨hbounds, hstep⟩ := judgesAll_append.1 hrest
    obtain ⟨hstart, hstop⟩ := judgesAll_append.1 hbounds
    refine .aside_bind hs (.evalInt setup _ start) (hknows.evalInt _ hstart) ?_
    intro first s₁ _ hs₁ hsame₁
    refine .aside_bind hs₁ (.evalInt setup _ stop) (hknows.evalInt _ hstop) ?_
    intro last s₂ _ hs₂ hsame₂
    have hstride : Aside (rangeStep setup step) ∧ Knowing (rangeStep setup step) := by
      cases step with
      | none => exact ⟨.pure _, .pure _⟩
      | some e => exact ⟨.evalInt setup _ e, hknows.evalInt _ hstep⟩
    refine .aside_bind hs₂ hstride.1 hstride.2 ?_
    intro stride s₃ _ hs₃ hsame₃
    split
    · exact .refused rfl
    · refine .pure ⟨hs₃.onward, fun task htask => ?_⟩
      rw [List.mem_singleton.1 htask]
      rw [← hsame₁, ← hsame₂, ← hsame₃] at hbody
      exact ⟨rfl, hbody⟩
  | loop test body loc =>
    refine .pure ⟨hs.onward, fun task htask => ?_⟩
    rw [List.mem_singleton.1 htask]
    exact ⟨rfl, h⟩
  | assert test message loc =>
    refine .aside_bind hs (.evalCondition setup test) (hknows.evalCondition h.judgesAll) ?_
    intro passed s₁ _ hs₁ _
    refine .aside_bind hs₁ (.trace setup _ _) (hknows.trace _ _) ?_
    intro _ s₂ _ hs₂ _
    split
    · exact .pure hs₂.onward.nothing
    · exact .refused rfl
  | bind name value loc =>
    refine .aside_bind hs (.eval setup value) (hknows.eval value h.judgesAll) ?_
    intro v s₁ _ hs₁ _
    exact .bind (bindVariable_ends hs₁ name loc v) fun _ s' _ honward => .pure honward.nothing
  | assign name value loc =>
    refine .aside_bind hs (.eval setup value) (hknows.eval value h.judgesAll) ?_
    intro v s₁ _ hs₁ _
    exact .bind (assignVariable_ends hs₁ name loc v) fun _ s' _ honward => .pure honward.nothing
  | command name args loc =>
    refine (openCommand_ends hstore hs ⟨name, args, loc⟩ h).imp (fun _ _ hopened => hopened) ?_
    intro x s' hunmet hlacks
    exact ⟨⟨name, args, loc⟩, rfl, hunmet hlacks⟩
  | block body => exact openBody_ends hs h

/-! ## Tasks -/

/-- What a task may end a run with for want of a name; only one that begins with a command may. -/
def Task.UnmetBy (setup : Setup σ) (program : Program) (task : Task) (s : State σ)
    (x : Termination) (s' : State σ) : Prop :=
  ∃ statement rest s₁, task = .each (statement :: rest) ∧
    checkLocated setup statement s = (.ok (), s₁) ∧ Run.UnmetBy setup program statement s₁ x s'

/-- One test of a loop. -/
theorem turn_ends (hs : CoveredState setup program s) {more : Run σ Bool} {start : Run σ Unit}
    {opened : Run σ (List Task)} {again : List Task} (hmore : Aside more ∧ Knowing more)
    (hstart : Aside start ∧ Knowing start) {R : Termination → State σ → Prop}
    (hopened : ∀ s', CoveredState setup program s' → s'.functions = s.functions →
      Ends opened s' (Opened setup program s') (fun x t => x.LacksName → R x t))
    (hagain : ∀ task ∈ again, task.Covered setup program s.functions) :
    Ends (turn more start opened again) s
      (fun advance s' => Opened setup program s advance.tasks s')
      (fun x t => x.LacksName → R x t) := by
  refine .bind (.aside hs hmore.1 hmore.2) ?_
  rintro goes s₁ - ⟨honward, hsame⟩
  cases goes with
  | false => exact .pure honward.nothing
  | true =>
    refine .bind (.aside honward.covered hstart.1 hstart.2) ?_
    rintro _ s₂ - ⟨honward', hsame'⟩
    refine .bind (hopened s₂ honward'.covered (hsame'.trans hsame)) ?_
    rintro tasks s₃ - ⟨honward'', htasks⟩
    have hall := (honward.trans honward').trans honward''
    refine .pure ⟨hall, fun task htask => ?_⟩
    rcases List.mem_append.1 htask with htask | htask
    · exact htasks task htask
    · exact (hagain task htask).mono hall.grown

/-- One step of what is left to do. -/
theorem Task.run_ends (hstore : AnswersByName setup) (hs : CoveredState setup program s)
    {task : Task} (h : task.Covered setup program s.functions) :
    Ends (task.run setup) s (fun advance s' => Opened setup program s advance.tasks s')
      (fun x s' => x.LacksName → task.UnmetBy setup program s x s') := by
  have hknows := Knowing.elementary setup
  cases task with
  | whole program => cases h.begun
  | closeScope =>
    refine .modify_bind (.pure (Onward.nothing ⟨?_, .refl _⟩))
    exact { hs with macros := hs.macros.pop }
  | closeFrame =>
    refine .modify_bind (.pure (Onward.nothing ⟨?_, .refl _⟩))
    exact { hs with macros := hs.macros.pop }
  | each statements =>
    cases statements with
    | nil => exact .pure hs.onward.nothing
    | cons statement rest =>
      have hstatement := Run.Covered.left h.code
      have hrest := Run.Covered.right h.code
      refine .bind (.aside hs (.checkLocated setup statement) (hknows.checkLocated statement)) ?_
      rintro _ s₁ hlocated ⟨honward, hsame⟩
      have hopen := openStatement_ends hstore honward.covered (hsame ▸ hstatement)
      refine .bind (hopen.imp (fun _ _ h => h) ?_) ?_
      · intro x s' hunmet hlacks
        exact ⟨statement, rest, s₁, rfl, hlocated, hunmet hlacks⟩
      · rintro tasks s₂ - ⟨honward', htasks⟩
        refine .pure ⟨honward.trans honward', fun task htask => ?_⟩
        rcases List.mem_append.1 htask with htask | htask
        · exact htasks task htask
        · rw [List.mem_singleton.1 htask]
          exact ⟨rfl, hrest.mono (honward.trans honward').grown⟩
  | count loc n body i =>
    refine turn_ends hs ⟨.pure _, .pure _⟩
      ⟨.beginIteration setup _ _ _, hknows.beginIteration (.modify _) _ _ _⟩ ?_ ?_
    · intro s₁ hs₁ hsame
      exact openBody_ends hs₁ (hsame ▸ h.code)
    · intro task htask
      rw [List.mem_singleton.1 htask]
      exact ⟨rfl, h.code⟩
  | test loc e body i =>
    have he := (judgesAll_append.1 h.code.judgesAll).1
    have hbody := h.code.ofParts (List.subset_append_right _ _) (List.Subset.refl _)
    refine turn_ends hs ⟨.evalCondition setup e, hknows.evalCondition he⟩
      ⟨.beginIteration setup _ _ _, hknows.beginIteration (.modify _) _ _ _⟩ ?_ ?_
    · intro s₁ hs₁ hsame
      exact openBody_ends hs₁ (hsame ▸ hbody)
    · intro task htask
      rw [List.mem_singleton.1 htask]
      exact ⟨rfl, h.code⟩
  | range loc name stop step body c =>
    refine turn_ends hs ⟨.pure _, .pure _⟩
      ⟨.beginIteration setup _ _ _, hknows.beginIteration (.modify _) _ _ _⟩ ?_ ?_
    · intro s₁ hs₁ hsame
      exact openRound_ends hs₁ name c.value (hsame ▸ h.code)
    · intro task htask
      obtain ⟨value, -, rfl⟩ := Option.map_eq_some_iff.1 (Option.mem_toList.1 htask)
      exact ⟨rfl, h.code⟩

end Run

end BlockScript
