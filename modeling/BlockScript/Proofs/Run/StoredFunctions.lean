import BlockScript.Proofs.Run.StoredMacros

/-!
# A store with one more function

A function whose parameters are all required is added to the store of a context. Programs that call
it run as they do after the declaration of the macro that it holds. Two things that a run asks
differ: the function is looked up, and the declaration is a statement before which the run looks
whether it has been cancelled. So two worlds are compared by what can be seen of them, which is all
of them or all but a record of these two questions.
-/
namespace BlockScript
set_option autoImplicit false

variable {σ ν α : Type}

/-! ## Views -/

/-- A question whose answer, and what it leaves to be seen, depend on what is seen alone. -/
def Act.Respects (view : σ → ν) (act : Act σ α) : Prop :=
  ∀ world world', view world = view world' →
    (act world).1 = (act world').1 ∧ view (act world).2 = view (act world').2

/-- A context that shows nothing but what is seen. -/
structure Context.Respects (view : σ → ν) (context : Context σ) : Prop where
  pose : Act.Respects view context.probe.pose
  scan : ∀ radius, Act.Respects view (context.probe.scan radius)
  search : ∀ query origin radius, Act.Respects view (context.probe.findBlock query origin radius)
  waypoint : ∀ actor name, Act.Respects view (context.waypoint actor name)
  function : ∀ actor name, Act.Respects view (context.function actor name)
  cancelled : Act.Respects view context.cancelled
  judges : ∀ name handler, context.registry.predicate? name = some handler →
    ∀ args, Act.Respects view (handler.evaluate args)
  needsScan : ∀ name handler, context.registry.command? name = some handler →
    Act.Respects view handler.needsScan
  attempts : ∀ name handler, context.registry.command? name = some handler →
    ∀ args, Act.Respects view (Run.attempt handler args)

theorem Act.respects_id (act : Act σ α) : Act.Respects id act := by
  rintro world _ rfl
  exact ⟨rfl, rfl⟩

theorem Context.respects_id (context : Context σ) : context.Respects id where
  pose := Act.respects_id _
  scan := fun _ => Act.respects_id _
  search := fun _ _ _ => Act.respects_id _
  waypoint := fun _ _ => Act.respects_id _
  function := fun _ _ => Act.respects_id _
  cancelled := Act.respects_id _
  judges := fun _ _ _ _ => Act.respects_id _
  needsScan := fun _ _ _ => Act.respects_id _
  attempts := fun _ _ _ _ => Act.respects_id _

/-- The world, and of what has been written down the part that is kept. -/
def Contact.view (keep : Contact → Bool) (seen : σ × List Contact) : σ × List Contact :=
  (seen.1, seen.2.filter keep)

theorem Act.respects_recorded (keep : Contact → Bool) (act : Act σ α) (contact : α → Contact) :
    Act.Respects (Contact.view keep) (act.recorded contact) := by
  rintro ⟨world, log⟩ ⟨world', log'⟩ hview
  obtain ⟨rfl, hlog⟩ := Prod.mk.inj hview
  refine ⟨rfl, Prod.ext rfl ?_⟩
  change List.filter keep (contact (act world).1 :: log) =
    List.filter keep (contact (act world).1 :: log')
  rw [List.filter_cons, List.filter_cons, show log.filter keep = log'.filter keep from hlog]

/-- The check and the action respect a view, and so does the attempt. -/
theorem Run.respects_attempt {view : σ → ν} {handler : CommandHandler σ} {args : Arguments}
    (hvalidate : Act.Respects view (handler.validate args))
    (hexecute : Act.Respects view (handler.execute args)) :
    Act.Respects view (Run.attempt handler args) := by
  intro world world' hview
  obtain ⟨hanswer, hafter⟩ := hvalidate world world' hview
  unfold Run.attempt
  generalize handler.validate args world = checked at hanswer hafter
  generalize handler.validate args world' = checked' at hanswer hafter
  obtain ⟨answer, after⟩ := checked
  obtain ⟨answer', after'⟩ := checked'
  obtain rfl : answer = answer' := hanswer
  cases answer with
  | error fault => exact ⟨rfl, hafter⟩
  | ok _ => exact hexecute after after' hafter

theorem Context.respects_recorded (keep : Contact → Bool) (context : Context σ) :
    context.recorded.Respects (Contact.view keep) where
  pose := Act.respects_recorded keep _ _
  scan := fun _ => Act.respects_recorded keep _ _
  search := fun _ _ _ => Act.respects_recorded keep _ _
  waypoint := fun _ _ => Act.respects_recorded keep _ _
  function := fun _ _ => Act.respects_recorded keep _ _
  cancelled := Act.respects_recorded keep _ _
  judges := by
    intro name handler hhandler args
    rw [show context.recorded.registry.predicate? name = _ from Dict.get?_mapValues ..] at hhandler
    obtain ⟨original, -, rfl⟩ := Option.map_eq_some_iff.1 hhandler
    exact Act.respects_recorded keep _ _
  needsScan := by
    intro name handler hhandler
    rw [show context.recorded.registry.command? name = _ from Dict.get?_mapValues ..] at hhandler
    obtain ⟨original, -, rfl⟩ := Option.map_eq_some_iff.1 hhandler
    exact Act.respects_recorded keep _ _
  attempts := by
    intro name handler hhandler args
    rw [show context.recorded.registry.command? name = _ from Dict.get?_mapValues ..] at hhandler
    obtain ⟨original, -, rfl⟩ := Option.map_eq_some_iff.1 hhandler
    exact Run.respects_attempt (Act.respects_recorded keep _ _) (Act.respects_recorded keep _ _)

namespace Run

/-- Outsides that are the same but for what is not seen of the world. -/
structure SameView (view : σ → ν) (o p : Outside σ) : Prop where
  seen : view o.world = view p.world
  others : { o with world := p.world } = p

namespace SameView

variable {view : σ → ν} {o p : Outside σ}

theorem asks {act : Act σ α} (hact : Act.Respects view act) : AsksAlike (SameView view) act act where
  answer := fun o p h => (hact _ _ h.seen).1
  kept := fun o p h => by
    refine ⟨(hact _ _ h.seen).2, ?_⟩
    rw [← h.others]

theorem journal (h : SameView view o p) : o.journal = p.journal := by
  rw [← h.others]

theorem ops (h : SameView view o p) : o.ops = p.ops := by
  rw [← h.others]

theorem lastOk (h : SameView view o p) : o.lastOk = p.lastOk := by
  rw [← h.others]

theorem traced {a b : Setup σ} (hoptions : a.options = b.options) (h : SameView view o p)
    (loc : Location) (kind : TraceKind) :
    SameView view (o.traced a loc kind) (p.traced b loc kind) := by
  unfold Outside.traced
  rw [hoptions, h.journal]
  split
  · refine ⟨h.seen, ?_⟩
    rw [← h.others]
  · exact h

theorem concluded (h : SameView view o p) (op : String) (result : StepResult) {world world' : σ}
    (hworld : view world = view world') :
    SameView view (o.concluded op result world) (p.concluded op result world') := by
  refine ⟨hworld, ?_⟩
  rw [← h.others]
  rfl

end SameView

/-! ## Two stores -/

section

variable {context : Context σ} {view : σ → ν} (options : RunOptions)
  (store : String → String → Act σ (Except StoreError (Option StoredFunction)))

theorem sameSight_view (hview : context.Respects view) :
    SameSight ⟨{ context with function := store }, options⟩ ⟨context, options⟩ (SameView view)
      (fun _ _ _ => False) where
  actor := rfl
  ops := fun o p h => h.ops
  lastOp := fun o p h => by rw [← h.others]
  lastOk := fun o p h => h.lastOk
  stamp := fun o p h => by rw [h.journal]
  pose := SameView.asks hview.pose
  search := fun _ _ => SameView.asks (hview.search _ _ _)
  waypoint := fun _ => SameView.asks (hview.waypoint _ _)
  predicate := fun name => by
    dsimp only
    cases hhandler : context.registry.predicate? name with
    | none => exact .none
    | some handler => exact .some fun args => SameView.asks (hview.judges name handler hhandler args)
  told := fun loc name value o p _ h => h.traced rfl loc _
  toldLastOk := fun loc o p h => by
    rw [h.lastOk]
    exact h.traced rfl loc _
  cutWorld := fun _ _ _ _ h => h
  cutTraced := fun _ _ _ _ _ h => h

theorem sameCommand_view (hview : context.Respects view) (call : CommandCall)
    {handler : CommandHandler σ}
    (hhandler : context.registry.command? call.name = some handler) :
    SameCommand ⟨{ context with function := store }, options⟩ ⟨context, options⟩ (SameView view)
      (fun _ _ _ => False) call handler handler where
  cancelled := SameView.asks hview.cancelled
  opLimit := Nat.le_refl _
  opCut := fun hlt => absurd hlt (Nat.lt_irrefl _)
  started := fun o p h => by
    rw [h.ops]
    exact h.traced rfl _ _
  autoScan := rfl
  needsScan := SameView.asks (hview.needsScan _ handler hhandler)
  scan := SameView.asks (hview.scan _)
  stopOnFailure := rfl
  settles := fun o p prepared h _ => by
    rw [h.ops, h.journal]
    cases prepared with
    | lookupFailed message notes => exact ⟨rfl, h.concluded _ _ h.seen⟩
    | ready args notes =>
      obtain ⟨hanswer, hafter⟩ := hview.attempts _ handler hhandler args _ _ h.seen
      dsimp only [settle]
      rw [hanswer]
      exact ⟨rfl, h.concluded _ _ hafter⟩
  cutConcluded := fun _ _ _ _ _ h => h

theorem sameFlow_view (hview : context.Respects view) :
    SameFlow ⟨{ context with function := store }, options⟩ ⟨context, options⟩ (SameView view)
      (fun _ _ _ => False) :=
  { sameSight_view options store hview with
    cancelled := SameView.asks hview.cancelled
    flow := fun loc kind _ _ _ h => h.traced rfl loc kind
    iterationLimit := Nat.le_refl _
    iterationCut := fun hlt => absurd hlt (Nat.lt_irrefl _) }

end

/-! ## Functions that hold a macro -/

end Run

/-- A function that is what a macro is: it requires the same parameters, and its text reads as the
statements of the same body. -/
structure StoredFunction.Holds (function : StoredFunction) (m : Macro) : Prop where
  name : function.name = m.name
  params : function.params = m.params.map fun p => .required p.name p.type
  body : parse function.body = .ok m.body.statements

/-- A context with one more function in its store. -/
def Context.storing (context : Context σ) (function : StoredFunction) : Context σ :=
  { context with
    function := fun actor name =>
      if name = function.name then fun world => (.ok (some function), world)
      else context.function actor name }

/-- All that a run asks, but for whether it has been cancelled and for functions of this name. -/
def Contact.besides (name : String) : Contact → Bool
  | cancelled _ => false
  | function _ other _ => other ≠ name
  | _ => true

namespace Run

/-- A store that has one more function than that of a context; to look it up is not seen. -/
structure Adds (view : σ → ν) (context : Context σ) (function : StoredFunction)
    (store : String → String → Act σ (Except StoreError (Option StoredFunction))) : Prop where
  others : ∀ actor name, name ≠ function.name → store actor name = context.function actor name
  answer : ∀ actor world, (store actor function.name world).1 = .ok (some function)
  unseen : ∀ actor world, view (store actor function.name world).2 = view world

theorem adds_storing (context : Context σ) (function : StoredFunction) :
    Adds id context function (context.storing function).function := by
  have hself : ∀ actor, (context.storing function).function actor function.name =
      fun world => (.ok (some function), world) := fun _ => if_pos rfl
  refine ⟨fun _ _ hname => if_neg hname, fun actor world => ?_, fun actor world => ?_⟩
  · rw [hself]
  · rw [hself]

theorem adds_recorded (context : Context σ) (function : StoredFunction) :
    Adds (Contact.view (Contact.besides function.name)) context.recorded function
      (context.storing function).recorded.function := by
  have hadds := adds_storing context function
  refine ⟨fun actor name hname => ?_, fun actor seen => hadds.answer actor seen.1,
    fun actor seen => ?_⟩
  · exact congrArg (Act.recorded · (.function actor name)) (hadds.others actor name hname)
  · refine Prod.ext (hadds.unseen actor seen.1) (List.filter_cons_of_neg ?_)
    simp [Contact.besides]

theorem loadParams_required (function : String) (loc : Location) (params : List Param)
    (s : State σ) :
    loadParams function loc (params.map fun p => .required p.name p.type) s =
      (.ok (params.map fun p => ⟨p.name, p.type, none, false⟩), s) := by
  induction params with
  | nil => rfl
  | cons param rest ih => exact Eq.trans (bind_ok rfl) (Eq.trans (bind_ok ih) rfl)

theorem load_of_holds {function : StoredFunction} {m : Macro} (h : function.Holds m)
    (loc : Location) (s : State σ) : Run.load loc function s = (.ok (.ofStored m), s) := by
  unfold Run.load
  rw [h.body, h.params, h.name]
  exact Eq.trans (bind_ok (loadParams_required _ loc m.params s)) rfl

/-- With the function in its store, a context differs in nothing else. -/
theorem sameButStored_view {context : Context σ} {options : RunOptions} {view : σ → ν}
    (hview : context.Respects view) {m : Macro} {function : StoredFunction}
    (hholds : function.Holds m)
    {store : String → String → Act σ (Except StoreError (Option StoredFunction))}
    (hadds : Adds view context function store)
    (hcalls : ∀ call ∈ Program.calls m.body.statements,
      Handled ⟨context, options⟩ call ∨ call.isPredicate = false ∧ call.name = m.name)
    (hunregistered : context.registry.hasCommand m.name = false)
    (hstore : AnswersByName ⟨context, options⟩)
    (hgoes : ∀ world, (context.cancelled world).1 = false ∧
      view (context.cancelled world).2 = view world) :
    SameButStored ⟨{ context with function := store }, options⟩ ⟨context, options⟩
      (SameView view) m :=
  { sameFlow_view options store hview with
    command := fun call => by
      dsimp only
      cases hhandler : context.registry.command? call.name with
      | none => exact .none
      | some handler =>
        exact .some fun _ hR => (sameCommand_view options store hview call hhandler).dispatch
          (sameSight_view options store hview) hR
    callDepth := rfl
    unregistered := hunregistered
    function := fun name hname => by
      rw [← hholds.name] at hname
      dsimp only
      rw [hadds.others _ name hname]
      exact SameView.asks (hview.function _ name)
    named := fun name hname world other hanswer => by
      rw [← hholds.name] at hname
      dsimp only at hanswer
      rw [hadds.others _ name hname] at hanswer
      exact hstore name world other hanswer
    stored := fun o p h => by
      rw [← hholds.name]
      refine ⟨function, hadds.answer _ o.world, load_of_holds hholds, ?_, ?_⟩
      · exact (hadds.unseen _ o.world).trans h.seen
      · rw [← h.others]
    uncancelled := fun o p h => by
      refine ⟨(hgoes p.world).1, h.seen.trans (hgoes p.world).2.symm, ?_⟩
      rw [← h.others]
    calls := hcalls }

/-! ## Whole runs -/

section

variable {a b : Setup σ} {view : σ → ν} {m : Macro}

theorem Paired.atStart (view : σ → ν) (m : Macro) (journal : Journal) (world : σ) :
    Paired (SameView view) m none 0 (start journal world) (start journal world) where
  outside := ⟨rfl, rfl⟩
  env := ⟨rfl, rfl, rfl, rfl, rfl, fun _ _ => rfl⟩
  iterations := rfl
  depth := rfl
  functions := fun _ _ => rfl
  remembered := fun _ hfound => by cases hfound
  named := fun _ _ hloaded => by cases hloaded
  validated := fun _ _ => rfl

/-- Both runs end alike, and what is seen of their worlds is the same. -/
theorem program_view (hc : SameButStored a b (SameView view) m) {program : Program}
    (hdeclared : m.name ∉ Program.declared program)
    (hclear : ∀ call ∈ Program.calls program, call.isPredicate = false →
      call.name ∈ Program.declared m.body.statements →
      call.name ∈ Program.declared program ∨ b.context.registry.hasCommand call.name = true)
    (journal : Journal) (world : σ) :
    let stored := Run.program a program journal world
    let declared := Run.program b (m.declaration :: program) journal world
    stored.1 = declared.1 ∧ stored.2.journal = declared.2.journal ∧
      view stored.2.world = view declared.2.world := by
  have hagree := hc.body hdeclared hclear (Paired.atStart view m journal world)
  dsimp only [Run.program]
  generalize Run.body a program (start journal world) = first,
    Run.body b (m.declaration :: program) (start journal world) = second at hagree
  cases hagree with
  | cut hcut => exact hcut.elim
  | @both answer s t h =>
    have hjournal : s.journal = t.journal := h.journal
    have hresults : s.results = t.results := congrArg Outside.results h.others
    have hops : s.ops = t.ops := h.ops
    have hreport : reportOf s (outcomeOf answer) = reportOf t (outcomeOf answer) := by
      unfold reportOf
      rw [hjournal, hresults, hops]
    refine ⟨hreport, ?_, h.seen⟩
    dsimp only [finish]
    rw [hreport, hjournal]

end

section

variable (context : Context σ)

theorem hasCommand_recorded (name : String) :
    context.recorded.registry.hasCommand name = context.registry.hasCommand name := by
  unfold Registry.hasCommand Dict.contains
  rw [show context.recorded.registry.commands.get? name = _ from Dict.get?_mapValues ..,
    Option.isSome_map]

theorem hasPredicate_recorded (name : String) :
    context.recorded.registry.hasPredicate name = context.registry.hasPredicate name := by
  unfold Registry.hasPredicate Dict.contains
  rw [show context.recorded.registry.predicates.get? name = _ from Dict.get?_mapValues ..,
    Option.isSome_map]

theorem handled_recorded (options : RunOptions) (call : Call) :
    Handled ⟨context.recorded, options⟩ call ↔ Handled ⟨context, options⟩ call := by
  unfold Handled Judges
  rw [hasCommand_recorded, hasPredicate_recorded]

end

/-- Stored functions behave like macros. A stored function holds a macro whose body calls nothing
but handlers and itself, and no handler has its name. Then a program that does not declare this name
runs with the function in the store as it runs after the declaration of the macro without it: the
report, the journal with all its events, and the world that is left behind are the same. The runs
ask the world outside the same questions in the same order, with the same arguments and answers,
but for lookups of the function and for whether they have been cancelled, which they have not. A name
that the program calls must not be taken for that of a macro inside the body. -/
theorem stored_functions_behave_like_macros (context : Context σ) (options : RunOptions) {m : Macro}
    {function : StoredFunction} (hholds : function.Holds m)
    (hcalls : ∀ call ∈ Program.calls m.body.statements,
      Handled ⟨context, options⟩ call ∨ call.isPredicate = false ∧ call.name = m.name)
    (hunregistered : context.registry.hasCommand m.name = false)
    (hstore : AnswersByName ⟨context, options⟩)
    (hgoes : ∀ world, context.cancelled world = (false, world))
    {program : Program} (hdeclared : m.name ∉ Program.declared program)
    (hclear : ∀ call ∈ Program.calls program, call.isPredicate = false →
      call.name ∈ Program.declared m.body.statements →
      call.name ∈ Program.declared program ∨ context.registry.hasCommand call.name = true)
    (journal : Journal) (world : σ) :
    (let stored := Run.program ⟨context.storing function, options⟩ program journal world
     let declared := Run.program ⟨context, options⟩ (m.declaration :: program) journal world
     stored.1 = declared.1 ∧ stored.2.journal = declared.2.journal ∧
       stored.2.world = declared.2.world) ∧
    (let stored :=
       Run.program ⟨(context.storing function).recorded, options⟩ program journal (world, [])
     let declared :=
       Run.program ⟨context.recorded, options⟩ (m.declaration :: program) journal (world, [])
     stored.2.world.2.filter (Contact.besides m.name) =
       declared.2.world.2.filter (Contact.besides m.name)) := by
  constructor
  · have hquiet : ∀ world, (context.cancelled world).1 = false ∧
        id (context.cancelled world).2 = id world := by
      intro world
      rw [hgoes]
      exact ⟨rfl, rfl⟩
    have hc := sameButStored_view context.respects_id hholds (adds_storing context function) hcalls
      hunregistered hstore hquiet
    exact program_view hc hdeclared hclear journal world
  · have hquiet : ∀ seen, (context.recorded.cancelled seen).1 = false ∧
        Contact.view (Contact.besides function.name) (context.recorded.cancelled seen).2 =
          Contact.view (Contact.besides function.name) seen := by
      intro seen
      change (context.cancelled seen.1).1 = false ∧ Contact.view _
        ((context.cancelled seen.1).2, .cancelled (context.cancelled seen.1).1 :: seen.2) = _
      rw [hgoes]
      exact ⟨rfl, rfl⟩
    have hc := sameButStored_view (context.respects_recorded _) hholds
      (adds_recorded context function)
      (fun call hcall => (hcalls call hcall).imp_left (handled_recorded context options call).2)
      ((hasCommand_recorded context m.name).trans hunregistered)
      (fun name seen => hstore name seen.1) hquiet
    have hclear' : ∀ call ∈ Program.calls program, call.isPredicate = false →
        call.name ∈ Program.declared m.body.statements → call.name ∈ Program.declared program ∨
          context.recorded.registry.hasCommand call.name = true := by
      intro call
      rw [hasCommand_recorded]
      exact hclear call
    obtain ⟨-, -, hseen⟩ := program_view hc hdeclared hclear' journal (world, [])
    rw [← hholds.name]
    exact congrArg Prod.snd hseen

/-- What a text is read as, from something that is computed of it. -/
theorem parsed {text : String} {view : Program → α} {seen : α}
    (h : (parse text).toOption.map view = some seen) :
    ∃ program, parse text = .ok program ∧ view program = seen := by
  cases hparse : parse text with
  | error error =>
    rw [hparse] at h
    cases h
  | ok program =>
    rw [hparse] at h
    exact ⟨program, rfl, Option.some.inj h⟩

/-- A function that calls itself until no further call may be opened, and the macro that it holds. -/
theorem stored_functions_behave_like_macros_when_recursive :
    let mark : CommandHandler Nat := { execute := fun _ marks => (.ok [], marks + 1) }
    let context : Context Nat :=
      { registry := ⟨Dict.empty.insert "mark" mark, Dict.empty⟩
        probe :=
          { pose := fun marks => (.error (.unavailable ""), marks)
            blockAt := fun _ marks => (.ok none, marks)
            findBlock := fun _ _ _ marks => (.ok none, marks) } }
    let function : StoredFunction := ⟨"fill", none, [], "mark(); fill();", 1⟩
    let program : Program := [.command "fill" [] default]
    ∃ m : Macro, function.Holds m ∧
      (let stored := Run.program ⟨context.storing function, {}⟩ program default 0
       let declared := Run.program ⟨context, {}⟩ (m.declaration :: program) default 0
       stored.1 = declared.1 ∧ stored.2.world = 10 ∧ declared.2.world = 10) := by
  intro mark context function program
  have hregistered : context.registry.hasCommand "mark" = true := by decide +kernel
  have hunregistered : context.registry.hasCommand "fill" = false := by decide +kernel
  have hdeclared : "fill" ∉ Program.declared program := by decide +kernel
  have hmarks : (Run.program ⟨context.storing function, {}⟩ program default 0).2.world = 10 := by
    decide +kernel
  have hread : (parse function.body).toOption.map
      (fun body => (Program.calls body, Program.declared body)) =
      some ([⟨"mark", ⟨1, 1⟩, false⟩, ⟨"fill", ⟨1, 9⟩, false⟩], []) := by
    decide +kernel
  obtain ⟨body, hparse, hbody⟩ := parsed hread
  obtain ⟨hcalled, hnone⟩ := Prod.mk.inj hbody
  let m : Macro := ⟨"fill", [], ⟨body, default⟩, default⟩
  have hholds : function.Holds m := ⟨rfl, rfl, hparse⟩
  have hcalls : ∀ call ∈ Program.calls m.body.statements,
      Handled ⟨context, {}⟩ call ∨ call.isPredicate = false ∧ call.name = m.name := by
    intro call hcall
    rcases List.mem_pair.1 (hcalled ▸ hcall) with rfl | rfl
    · exact .inl hregistered
    · exact .inr ⟨rfl, rfl⟩
  have hclear : ∀ call ∈ Program.calls program, call.isPredicate = false →
      call.name ∈ Program.declared m.body.statements →
      call.name ∈ Program.declared program ∨ context.registry.hasCommand call.name = true := by
    intro call _ _ hname
    exact absurd (hnone ▸ hname) List.not_mem_nil
  obtain ⟨⟨hreport, -, hworld⟩, -⟩ :=
    stored_functions_behave_like_macros context {} hholds hcalls hunregistered
      (fun _ _ _ hanswer => by cases hanswer) (fun _ => rfl) hdeclared hclear default 0
  exact ⟨m, hholds, hreport, hmarks, hworld.symm.trans hmarks⟩

/-- A macro inside the body of a function. With the function in the store, a program that calls the
inner macro is refused before its first command; after the declaration of the outer macro it is not,
and its first command is run. -/
theorem macro_inside_function_is_taken :
    let mark : CommandHandler Nat := { execute := fun _ marks => (.ok [], marks + 1) }
    let context : Context Nat :=
      { registry := ⟨Dict.empty.insert "mark" mark, Dict.empty⟩
        probe :=
          { pose := fun marks => (.error (.unavailable ""), marks)
            blockAt := fun _ marks => (.ok none, marks)
            findBlock := fun _ _ _ marks => (.ok none, marks) } }
    let function : StoredFunction := ⟨"fill", none, [], "macro inner() \x7b \x7d", 1⟩
    let program : Program := [.command "mark" [] default, .command "inner" [] default]
    context.registry.hasCommand "fill" = false ∧ AnswersByName ⟨context, {}⟩ ∧
    "fill" ∉ Program.declared program ∧
    ∃ m : Macro, function.Holds m ∧ Program.calls m.body.statements = [] ∧
      "fill" ∉ Program.declared m.body.statements ∧
      (Run.program ⟨context.storing function, {}⟩ program default 0).1.results = [] ∧
      (Run.program ⟨context.storing function, {}⟩ program default 0).2.world = 0 ∧
      (Run.program ⟨context, {}⟩ (m.declaration :: program) default 0).1.results.length = 1 ∧
      (Run.program ⟨context, {}⟩ (m.declaration :: program) default 0).2.world = 1 := by
  intro mark context function program
  let outer (body : Program) : Macro := ⟨"fill", [], ⟨body, default⟩, default⟩
  let run (body : Program) :=
    Run.program ⟨context, {}⟩ ((outer body).declaration :: program) default 0
  have hread : (parse function.body).toOption.map (fun body =>
      (Program.calls body, Program.declared body, (run body).1.results.length,
        (run body).2.world)) = some ([], ["inner"], 1, 1) := by
    decide +kernel
  obtain ⟨body, hparse, hbody⟩ := parsed hread
  simp only [Prod.mk.injEq] at hbody
  obtain ⟨hcalls, hdeclared, hlength, hworld⟩ := hbody
  refine ⟨by decide +kernel, fun _ _ _ hanswer => (by cases hanswer), by decide +kernel, outer body,
    ⟨rfl, rfl, hparse⟩, hcalls, ?_, by decide +kernel, by decide +kernel, hlength, hworld⟩
  exact hdeclared ▸ (by decide)

end Run

end BlockScript
