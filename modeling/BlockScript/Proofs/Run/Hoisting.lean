import BlockScript.Proofs.Run.CheckOrder
import BlockScript.Proofs.Run.StoredMacros
import BlockScript.Proofs.Script.Moving

/-!
# Declarations are hoisted

Before a list of statements is run, all macros that it declares are put into its scope. Where in the
list a declaration stands does therefore not matter, as long as no name is declared twice there. A
move inside the body of a macro is met only when the macro is called, so two runs are related whose
scopes hold macros with different bodies.
-/
namespace BlockScript
set_option autoImplicit false

open Grammar (macroNames)

/-- A macro, and the same one after a declaration in its body has moved, if any has. -/
inductive Macro.Kin : Macro → Macro → Prop where
  | same (m : Macro) : Kin m m
  | moved {m : Macro} {body : List Statement} (h : Moved m.body.statements body)
    (hdistinct : Program.Distinct m.body.statements) : Kin m { m with body := ⟨body, m.body.loc⟩ }

namespace Run

variable {σ : Type}

/-- A setup takes the course that it takes. -/
theorem SameCourse.refl (setup : Setup σ) :
    SameCourse setup setup (fun o p => o = p) (fun _ _ _ => False) :=
  { SameSight.refl setup with
    cancelled := .refl _
    function := fun _ => .refl _
    command := fun call => by
      cases setup.context.registry.command? call.name with
      | none => exact .none
      | some handler =>
        exact .some fun _ hR =>
          (SameCommand.refl setup call handler).dispatch (SameSight.refl setup) hR
    flow := fun _ _ _ _ _ h => h ▸ rfl
    iterationLimit := Nat.le_refl _
    iterationCut := fun hlt => absurd hlt (Nat.lt_irrefl _)
    callDepth := Nat.le_refl _
    depthCut := fun hlt => absurd hlt (Nat.lt_irrefl _) }

/-! ## Related states -/

/-- States that differ at most in the bodies of macros. -/
structure Kindred (s t : State σ) : Prop where
  outside : s.outside = t.outside
  env : s.env.Match Macro.Kin t.env
  iterations : s.iterations = t.iterations
  depth : s.depth = t.depth
  functions : s.functions = t.functions
  validated : s.validated = t.validated

namespace Kindred

theorem refl (s : State σ) : Kindred s s :=
  ⟨rfl, Env.match_refl .same s.env, rfl, rfl, rfl, rfl⟩

theorem recalls : Recalls (Kindred : State σ → State σ → Prop) (fun o p => o = p) where
  outside := fun h => h.outside
  update := fun h ho => { h with outside := ho }
  vars := fun h name => h.env.get? name
  inSight := fun {s t} h name => by
    have hfound := h.env.findMacro? name
    generalize s.env.findMacro? name = found, t.env.findMacro? name = found' at hfound
    cases hfound <;> rfl
  functions := fun h => h.functions
  validated := fun h => h.validated
  learn := fun h name callee => { h with functions := congrArg (·.insert name callee) h.functions }
  vouch := fun h name => { h with validated := congrArg (name :: ·) h.validated }

theorem walks :
    Walks (fun _ => (Kindred : State σ → State σ → Prop)) (fun o p => o = p) fun _ => True where
  shows := fun _ => recalls.toShows
  vars := fun name _ _ _ _ h => h.env.get? name
  iterations := fun h => h.iterations
  depth := fun h => h.depth
  count := fun h => { h with iterations := congrArg (· + 1) h.iterations }
  define := fun h macros => { h with env := h.env.defineAll .same macros }
  declare := fun h name value => { h with env := h.env.declare name value }
  assign := fun h name _ value =>
    optionRel_mono (h.env.assign? name value) fun _ _ henv => { h with env := henv }
  push := fun h => { h with env := h.env.opened _ }
  pop := fun h => { h with env := h.env.pop }
  enter := fun h bound =>
    { h with env := (h.env.opened _).declareAll bound, depth := congrArg (· + 1) h.depth }
  leave := fun h => { h with env := h.env.pop, depth := congrArg (· - 1) h.depth }

end Kindred

/-! ## One list of statements -/

section

variable {setup : Setup σ} {enter : Enter σ}

theorem execEach_append (first second : List Statement) :
    execEach setup enter (first ++ second) =
      (do execEach setup enter first; execEach setup enter second) := by
  induction first with
  | nil => rfl
  | cons statement rest ih => simp only [List.cons_append, execEach, ih, bind_assoc]

/-- To run a declaration is to look whether the run has been cancelled. -/
theorem execEach_define (hgoes : ∀ world, setup.context.cancelled world = (false, world))
    (name : String) (params : List Param) (body : Body Statement) (loc : Location)
    (rest : List Statement) :
    execEach setup enter (.define name params body loc :: rest) = execEach setup enter rest := by
  funext s
  have hask : ask setup.context.cancelled s = (.ok false, s) := by
    rw [ask_eq, hgoes]
    rfl
  have hcheck : checkLocated setup (.define name params body loc) s = (.ok (), s) :=
    (bind_ok hask).trans rfl
  exact bind_ok hcheck

/-- A declaration that moves in a list changes nothing in the running of the list. -/
theorem execStatements_moved (hgoes : ∀ world, setup.context.cancelled world = (false, world))
    (name : String) (params : List Param) (body : Body Statement) (loc : Location)
    {before after before' after' : List Statement} (h : before ++ after = before' ++ after')
    (hnames : (macroNames (before ++ .define name params body loc :: after)).Nodup) :
    execStatements setup enter (before ++ .define name params body loc :: after) =
      execStatements setup enter (before' ++ .define name params body loc :: after') := by
  have hhoist : hoist (before ++ .define name params body loc :: after) =
      (hoist (before' ++ .define name params body loc :: after') : Run σ Unit) := by
    have hperm := (perm_of_append_eq h (.define name params body loc)).filterMap Statement.macro?
    funext s
    simp only [hoist, modify, Env.defineAll_perm hperm hnames]
  have heach : execEach setup enter (before ++ .define name params body loc :: after) =
      execEach setup enter (before' ++ .define name params body loc :: after') := by
    rw [execEach_append, execEach_define hgoes, ← execEach_append, h, execEach_append,
      execEach_append, execEach_define hgoes]
  unfold execStatements
  rw [hhoist, heach]

end

/-! ## Statements -/

/-- Calls of a macro go together with those of the same macro after a move in its body. -/
structure CallsKin (setup : Setup σ) (enter : Enter σ) : Prop where
  same : ∀ command callee,
    Together Kindred (call setup enter command callee) (call setup enter command callee)
  kin : ∀ command {m m' : Macro}, m.Kin m' →
    Together Kindred (call setup enter command (.ofMacro m))
      (call setup enter command (.ofMacro m'))

section

variable {setup : Setup σ} {level : Nat}

/-- A name that means no macro is looked up elsewhere. -/
theorem execCommand_unscoped {command : CommandCall} {s : State σ}
    (h : s.env.findMacro? command.name = none) (enter : Enter σ) :
    execCommand setup enter command s = execUnscoped setup enter command s :=
  Eq.trans (bind_ok (read_at h)) rfl

/-- A name means kindred macros in both states, or none in either. -/
theorem CallsKin.execCommand {enter : Enter σ} (h : CallsKin setup enter) (command : CommandCall) :
    Together Kindred (execCommand setup enter command) (execCommand setup enter command) := by
  refine .uncut fun s t hst => ?_
  have hfound := hst.env.findMacro? command.name
  cases hs : s.env.findMacro? command.name <;> cases ht : t.env.findMacro? command.name <;>
    rw [hs, ht] at hfound
  · have hunscoped : Together Kindred (execUnscoped setup enter command)
        (execUnscoped setup enter command) :=
      (SameCourse.refl setup).execUnscoped (R := fun _ => Kindred) (n := 0) Kindred.recalls command
        (h.same command)
    rw [execCommand_unscoped hs, execCommand_unscoped ht]
    exact hunscoped.agree s t hst
  · cases hfound
  · cases hfound
  · cases hfound with
    | some hkin =>
      rw [execCommand_scoped hs, execCommand_scoped ht]
      exact (h.kin command hkin).agree s t hst

theorem CallsKin.executes (h : CallsKin setup (enterAt setup level)) :
    Executes setup setup (fun _ => Kindred) (fun _ => True) (fun _ _ _ => False)
      (enterAt setup level) (enterAt setup level) where
  steady := (Steady.pervasive setup).enterAt level
  steady' := (Steady.pervasive setup).enterAt level
  command := fun _ command _ => h.execCommand command

/-- The same statements run alike in kindred states. -/
theorem CallsKin.execEach (h : CallsKin setup (enterAt setup level)) (statements : List Statement) :
    Together Kindred (execEach setup (enterAt setup level) statements)
      (execEach setup (enterAt setup level) statements) :=
  (SameCourse.refl setup).sameFlow.execEach Kindred.walks h.executes statements
    (fun _ _ => trivial) 0

theorem CallsKin.execStatements (h : CallsKin setup (enterAt setup level))
    (statements : List Statement) :
    Together Kindred (execStatements setup (enterAt setup level) statements)
      (execStatements setup (enterAt setup level) statements) :=
  .bind (SameFlow.hoist Kindred.walks (n := 0) statements) fun _ => h.execEach statements

/-- A statement runs as it does with other statements between a pair of its braces that run like
those. -/
theorem CallsKin.around (h : CallsKin setup (enterAt setup level)) (braces : Braces)
    {body body' : List Statement}
    (hbody : Together Kindred (Run.execStatements setup (enterAt setup level) body)
      (Run.execStatements setup (enterAt setup level) body')) :
    Together Kindred (execStatement setup (enterAt setup level) (braces.around body))
      (execStatement setup (enterAt setup level) (braces.around body')) := by
  have hc := (SameCourse.refl setup).sameFlow
  have hwalks := Kindred.walks (σ := σ)
  have hsees := (Kindred.recalls (σ := σ)).toSees
  -- The braces open a scope, in which the lists go together.
  have hscope (place : Location) : Together Kindred
      (execBody setup (enterAt setup level) ⟨body, place⟩)
      (execBody setup (enterAt setup level) ⟨body', place⟩) :=
    Follows.inScope (n := 0) hwalks hbody
  have hsteady := h.executes.steadyBody
  cases braces with
  | define => exact .pure ()
  | whenTrue test place no loc =>
    refine .bind (hc.evalCondition hsees test) fun taken =>
      .bind (hc.flowTrace (n := 0) hwalks loc rfl) fun _ => ?_
    cases taken with
    | true => exact hscope place
    | false =>
      exact hc.execAlternative hwalks h.executes no (fun _ _ => trivial) 0
  | whenFalse test yes place loc =>
    refine .bind (hc.evalCondition hsees test) fun taken =>
      .bind (hc.flowTrace (n := 0) hwalks loc rfl) fun _ => ?_
    cases taken with
    | true => exact hc.execBody hwalks h.executes yes (fun _ _ => trivial) 0
    | false => exact hscope place
  | repeatCount count place loc =>
    exact .bind (hc.evalInt hsees _ count) fun m =>
      hc.countLoop (n := 0) hwalks loc m (hscope place) (hsteady _) (hsteady _)
  | repeatRange name start stop step place loc =>
    refine .bind (hc.evalInt hsees _ start) fun first =>
      .bind (hc.evalInt hsees _ stop) fun last =>
        .bind (hc.rangeStep (n := 0) hwalks fun _ _ => trivial) fun stride => ?_
    split
    · exact hc.fail hsees.toShows _ loc
    · exact hc.rangeLoop (n := 0) hwalks loc name last stride (hscope place) (hsteady _)
        (hsteady _) _
  | loop test place loc =>
    exact hc.testLoop (n := 0) hwalks loc (fun _ _ => trivial) (hscope place) (hsteady _)
      (hsteady _)
  | block place => exact hscope place

/-- Both lists declare the same names, with kindred macros. -/
theorem hoist_around (braces : Braces) (before after : List Statement)
    {body body' : List Statement} (h : Moved body body') (hdistinct : Program.Distinct body) :
    Together Kindred (hoist (before ++ braces.around body :: after) : Run σ Unit)
      (hoist (before ++ braces.around body' :: after)) := by
  refine .modify (fun s t hst => ?_) fun _ => rfl
  refine { hst with env := ?_ }
  dsimp only
  have hbefore := hst.env.defineAll .same (before.filterMap Statement.macro?)
  rw [List.filterMap_append, List.filterMap_append, List.foldl_append, List.foldl_append]
  cases braces with
  | define name params place loc =>
    let m : Macro := ⟨name, params, ⟨body, place⟩, loc⟩
    have hkin : m.Kin { m with body := ⟨body', place⟩ } := .moved h hdistinct
    exact (hbefore.define hkin rfl).defineAll .same (after.filterMap Statement.macro?)
  | _ => exact hbefore.defineAll .same (after.filterMap Statement.macro?)

/-- A list of statements runs as it does before a declaration moves, in it or further inside. -/
theorem CallsKin.moved (h : CallsKin setup (enterAt setup level))
    (hgoes : ∀ world, setup.context.cancelled world = (false, world))
    {statements statements' : List Statement} (hmoved : Moved statements statements')
    (hdistinct : Program.Distinct statements) :
    Together Kindred (Run.execStatements setup (enterAt setup level) statements)
      (Run.execStatements setup (enterAt setup level) statements') := by
  induction hmoved with
  | @here name params body loc _ _ _ _ hplaces =>
    rw [← execStatements_moved hgoes name params body loc hplaces hdistinct.names]
    exact h.execStatements _
  | @inside braces before after body body' hbody ih =>
    refine .bind (hoist_around braces before after hbody hdistinct.body) fun _ => ?_
    rw [execEach_append, execEach_append]
    have hplace (list : List Statement) : checkLocated setup (braces.around list) =
        checkLocated setup (braces.around []) := by
      cases braces <;> rfl
    refine .bind (h.execEach before) fun _ => ?_
    rw [Run.execEach, Run.execEach, hplace body, hplace body']
    exact .bind ((SameCourse.refl setup).sameFlow.checkLocated (n := 0) Kindred.walks _) fun _ =>
      .bind (h.around braces (ih hdistinct.body)) fun _ => h.execEach after

/-! ## Calls -/

theorem callsKin (setup : Setup σ)
    (hgoes : ∀ world, setup.context.cancelled world = (false, world)) (level : Nat) :
    CallsKin setup (enterAt setup level) := by
  have hc := SameCourse.refl setup
  have hwalks := Kindred.walks (σ := σ)
  induction level with
  | zero =>
    exact ⟨fun command callee => hc.refuse (n := 0) hwalks rfl command callee callee,
      fun command m m' _ => hc.refuse (n := 0) hwalks rfl command (.ofMacro m) (.ofMacro m')⟩
  | succ level ih =>
    have hsees := (Kindred.recalls (σ := σ)).toSees
    have hsame : ∀ command callee, Together Kindred
        (call setup (enterAt setup (level + 1)) command callee)
        (call setup (enterAt setup (level + 1)) command callee) := by
      intro command callee
      refine hc.callBoth (n := 0) hwalks hsees rfl (hc.validateOnce Kindred.recalls callee) ?_
        command
      rw [execAt_eq]
      exact ih.execStatements callee.body
    refine ⟨hsame, fun command m m' hkin => ?_⟩
    cases hkin with
    | same => exact hsame command (.ofMacro m)
    | moved hmoved hdistinct =>
      refine hc.callBoth (n := 0) hwalks hsees ?_ ?_ ?_ command
      · rfl
      · exact .pure ()
      · rw [execAt_eq, execAt_eq]
        exact ih.moved hgoes hmoved hdistinct

end

/-! ## Whole programs -/

/-- A program that passes the check of its names passes it after a move, and remembers the same. -/
theorem validate_moved {setup : Setup σ} (hstore : AnswersInAnyOrder setup)
    {program moved : Program} (h : Moved program moved) {s s' : State σ}
    (haccepted : validate setup program s = (.ok (), s')) :
    validate setup moved s = (.ok (), s') := by
  have hdeclared (name : String) :
      name ∈ Program.declared program ↔ name ∈ Program.declared moved := h.declared_perm.mem_iff
  unfold validate at haccepted ⊢
  rw [← checkCalls_declared_congr hdeclared]
  exact checkCalls_perm hstore h.calls_perm haccepted

/-- After one move a program ends as it ended before. -/
theorem program_moved {setup : Setup σ}
    (hgoes : ∀ world, setup.context.cancelled world = (false, world))
    {program moved : Program} (h : Moved program moved) (hdistinct : Program.Distinct program)
    {journal : Journal} {world : σ} {s : State σ}
    (haccepted : validate setup program (start journal world) = (.ok (), s))
    (hkept : validate setup moved (start journal world) = (.ok (), s)) :
    let first := Run.program setup program journal world
    let second := Run.program setup moved journal world
    first.1 = second.1 ∧ first.2.outside = second.2.outside := by
  have hagree := ((callsKin setup hgoes setup.options.maxCallDepth).moved hgoes h hdistinct).agree
    s s (.refl s)
  rw [← execAt_eq, ← execAt_eq] at hagree
  have hfirst : Run.body setup program (start journal world) =
      execAt setup setup.options.maxCallDepth program s := bind_ok haccepted
  have hsecond : Run.body setup moved (start journal world) =
      execAt setup setup.options.maxCallDepth moved s := bind_ok hkept
  dsimp only [Run.program]
  rw [hfirst, hsecond]
  generalize execAt setup setup.options.maxCallDepth program s = first,
    execAt setup setup.options.maxCallDepth moved s = second at hagree
  cases hagree with
  | cut hcut => exact hcut.elim
  | @both answer s t hst =>
    have houtside := hst.outside
    have hreport : reportOf s (outcomeOf answer) = reportOf t (outcomeOf answer) := by
      have hjournal : s.journal = t.journal := congrArg Outside.journal houtside
      have hresults : s.results = t.results := congrArg Outside.results houtside
      have hops : s.ops = t.ops := congrArg Outside.ops houtside
      unfold reportOf
      rw [hjournal, hresults, hops]
    refine ⟨hreport, ?_⟩
    dsimp only [finish]
    rw [hreport]
    exact congrArg
      (fun o : Outside σ => { o with journal := o.journal.finish (reportOf t (outcomeOf answer)) })
      houtside

/-- Declarations of macros are hoisted. A program passes the check of its names, and no list of
statements in it declares two macros of one name. Then it may be rearranged by moving declarations
within their lists, at any depth: the run is not cancelled, the store answers the check in any order,
and the report, the journal with all its events and the world that is left behind are the same. -/
theorem declarations_hoisted (setup : Setup σ)
    (hgoes : ∀ world, setup.context.cancelled world = (false, world))
    (hstore : AnswersInAnyOrder setup) {program rearranged : Program} (journal : Journal)
    (world : σ) (haccepted : (validate setup program (start journal world)).1 = .ok ())
    (hdistinct : Program.Distinct program) (h : Program.Rearranged program rearranged) :
    let first := Run.program setup program journal world
    let second := Run.program setup rearranged journal world
    first.1 = second.1 ∧ first.2.journal = second.2.journal ∧ first.2.world = second.2.world := by
  obtain ⟨s, hvalid⟩ : ∃ s, validate setup program (start journal world) = (.ok (), s) :=
    ⟨_, Prod.ext haccepted rfl⟩
  -- Every program on the way passes its check in the same state and ends as the first one does.
  have hall : Program.Distinct rearranged ∧
      validate setup rearranged (start journal world) = (.ok (), s) ∧
      (Run.program setup program journal world).1 =
        (Run.program setup rearranged journal world).1 ∧
      (Run.program setup program journal world).2.outside =
        (Run.program setup rearranged journal world).2.outside := by
    induction h with
    | refl => exact ⟨hdistinct, hvalid, rfl, rfl⟩
    | tail _ hmove ih =>
      obtain ⟨hbefore, hpassed, hreport, houtside⟩ := ih
      have hkept := validate_moved hstore hmove hpassed
      obtain ⟨hreport', houtside'⟩ := program_moved hgoes hmove hbefore hpassed hkept
      exact ⟨hmove.distinct hbefore, hkept, hreport.trans hreport', houtside.trans houtside'⟩
  obtain ⟨-, -, hreport, houtside⟩ := hall
  exact ⟨hreport, congrArg Outside.journal houtside, congrArg Outside.world houtside⟩

/-- A macro is called before its declaration. That declaration moves to the front of the program, and
so do one in the body of the macro and one in a loop, which takes the name for the loop. -/
theorem declarations_hoisted_at_every_depth :
    let mark (name : String) : CommandHandler (List String) :=
      { execute := fun _ marks => (.ok [], name :: marks) }
    let setup : Setup (List String) :=
      { context :=
          { registry := ⟨(Dict.empty.insert "a" (mark "a")).insert "b" (mark "b"), Dict.empty⟩
            probe :=
              { pose := fun marks => (.error (.unavailable ""), marks)
                blockAt := fun _ marks => (.ok none, marks)
                findBlock := fun _ _ _ marks => (.ok none, marks) } }
        options := {} }
    let invoke (name : String) : Statement := .command name [] default
    let declare (name : String) (body : List Statement) : Statement :=
      .define name [] ⟨body, default⟩ default
    let twice (body : List Statement) : Statement :=
      .repeatCount (.int 2 default) ⟨body, default⟩ default
    let program : Program :=
      [invoke "fill", declare "fill" [invoke "step", declare "step" [invoke "a"]],
        twice [invoke "fill", declare "fill" [invoke "b"]]]
    let rearranged : Program :=
      [declare "fill" [declare "step" [invoke "a"], invoke "step"], invoke "fill",
        twice [declare "fill" [invoke "b"], invoke "fill"]]
    Program.Rearranged program rearranged ∧
      (Run.program setup program default []).1 = (Run.program setup rearranged default []).1 ∧
      (Run.program setup program default []).2.world = ["b", "b", "a"] ∧
      (Run.program setup rearranged default []).2.world = ["b", "b", "a"] := by
  intro mark setup invoke declare twice program rearranged
  let inner := declare "fill" [invoke "step", declare "step" [invoke "a"]]
  let last := twice [invoke "fill", declare "fill" [invoke "b"]]
  have hfront : Moved program [inner, invoke "fill", last] :=
    .here [invoke "fill"] [last] [] [invoke "fill", last] rfl
  have hinner : Moved [inner, invoke "fill", last]
      [declare "fill" [declare "step" [invoke "a"], invoke "step"], invoke "fill", last] :=
    .inside (.define "fill" [] default default) [] [invoke "fill", last]
      (.here [invoke "step"] [] [] [invoke "step"] rfl)
  have hlast : Moved
      [declare "fill" [declare "step" [invoke "a"], invoke "step"], invoke "fill", last]
      rearranged :=
    .inside (.repeatCount (.int 2 default) default default)
      [declare "fill" [declare "step" [invoke "a"], invoke "step"], invoke "fill"] []
      (.here [invoke "fill"] [] [] [invoke "fill"] rfl)
  have hrearranged : Program.Rearranged program rearranged :=
    ((Relation.ReflTransGen.single hfront).tail hinner).tail hlast
  have hmarks : (Run.program setup program default []).2.world = ["b", "b", "a"] := by
    decide +kernel
  have haccepted : (validate setup program (start default [])).1 = .ok () := by rfl
  obtain ⟨hreport, -, hworld⟩ := declarations_hoisted setup (fun _ => rfl)
    ⟨fun _ _ _ => rfl, fun _ _ _ => rfl⟩ default [] haccepted (by decide +kernel) hrearranged
  exact ⟨hrearranged, hreport, hmarks, hworld.symm.trans hmarks⟩

end Run

end BlockScript
