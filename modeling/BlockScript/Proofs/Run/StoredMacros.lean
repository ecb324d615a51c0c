import BlockScript.Proofs.Run.CoveredSteps
import BlockScript.Proofs.Run.Lockstep
import BlockScript.Proofs.Run.Parameters
import BlockScript.Proofs.Run.Tracing

/-!
# Stored functions behave like macros

A stored function whose parameters are all required, and a macro with the same name, parameters and
body. One run has the function in its store; the other declares the macro first. The first run looks
the function up, remembers it and checks its body once; the second finds the macro in its global
scope. Apart from that, the two runs go step by step together.
-/
namespace BlockScript
set_option autoImplicit false

/-! ## Scopes -/

namespace Env

/-- Two environments that differ in one macro of the global scope: the first has none of this name.
The number counts the scopes inside. -/
structure Lacks (name : String) (shown : Option Macro) (n : Nat) (e f : Env) : Prop where
  locals : e.locals = f.locals
  scopes : e.locals.length = n
  vars : e.globals.vars = f.globals.vars
  hidden : e.globals.macros.get? name = none
  shown : f.globals.macros.get? name = shown
  macros : ∀ other, other ≠ name → e.globals.macros.get? other = f.globals.macros.get? other

namespace Lacks

variable {name : String} {shown : Option Macro} {n : Nat} {e f : Env}

theorem get? (h : Lacks name shown n e f) (key : String) : e.get? key = f.get? key := by
  unfold Env.get?
  rw [h.locals, h.vars]

theorem findMacro?_of_ne (h : Lacks name shown n e f) {other : String} (hne : other ≠ name) :
    e.findMacro? other = f.findMacro? other := by
  unfold Env.findMacro?
  rw [h.locals, h.macros other hne]

/-- Where the first environment finds a macro of the name, the second finds the same one. -/
theorem findMacro?_self (h : Lacks name shown n e f) :
    f.findMacro? name = (e.findMacro? name).or shown := by
  unfold Env.findMacro?
  rw [h.locals, h.hidden, h.shown, Option.or_none]

theorem withVars (h : Lacks name shown n e f) {vars vars' : Dict Value} (hvars : vars = vars') :
    Lacks name shown n { e with globals := { e.globals with vars := vars } }
      { f with globals := { f.globals with vars := vars' } } :=
  ⟨h.locals, h.scopes, hvars, h.hidden, h.shown, h.macros⟩

theorem withLocals (h : Lacks name shown n e f) {scopes : List Scope} {k : Nat}
    (hscopes : scopes.length = k) :
    Lacks name shown k { e with locals := scopes } { f with locals := scopes } :=
  { h with locals := rfl, scopes := hscopes }

/-- Inside a scope both environments change alike. -/
theorem modifyInnermost (h : Lacks name shown (n + 1) e f) (change : Bindings → Bindings) :
    Lacks name shown (n + 1) (e.modifyInnermost change) (f.modifyInnermost change) := by
  have hlocals := h.locals
  have hscopes := h.scopes
  unfold Env.modifyInnermost
  rw [← hlocals]
  cases hshape : e.locals with
  | nil =>
    rw [hshape] at hscopes
    cases hscopes
  | cons scope outer =>
    rw [hshape] at hscopes
    exact h.withLocals hscopes

theorem defineAll (h : Lacks name shown (n + 1) e f) (macros : List Macro) :
    Lacks name shown (n + 1) (macros.foldl Env.define e) (macros.foldl Env.define f) :=
  List.foldl_rel h fun _ _ _ _ h => h.modifyInnermost _

theorem declare (h : Lacks name shown n e f) (key : String) (value : Value) :
    Lacks name shown n (e.declare key value) (f.declare key value) := by
  cases n with
  | succ n => exact h.modifyInnermost _
  | zero =>
    obtain ⟨locals, globals⟩ := e
    obtain ⟨locals', globals'⟩ := f
    obtain rfl : locals = locals' := h.locals
    obtain rfl : locals = [] := List.eq_nil_of_length_eq_zero h.scopes
    exact h.withVars (congrArg (·.insert key value) h.vars)

theorem declareAll (h : Lacks name shown n e f) (bound : List (String × Value)) :
    Lacks name shown n (bound.foldl (fun env (key, value) => env.declare key value) e)
      (bound.foldl (fun env (key, value) => env.declare key value) f) :=
  List.foldl_rel h fun first _ _ _ h => h.declare first.1 first.2

theorem assign? (h : Lacks name shown n e f) (key : String) (value : Value) :
    Option.Rel (Lacks name shown n) (e.assign? key value) (f.assign? key value) := by
  obtain ⟨locals, globals⟩ := e
  obtain ⟨locals', globals'⟩ := f
  obtain rfl : locals = locals' := h.locals
  unfold Env.assign?
  dsimp only
  cases hset : setLocal? key value locals with
  | some scopes =>
    have hlength := congrArg List.length (setLocal?_macros hset)
    rw [List.length_map, List.length_map] at hlength
    exact .some (h.withLocals (hlength.trans h.scopes))
  | none =>
    have hvars : globals.vars = globals'.vars := h.vars
    rw [← hvars]
    dsimp only
    split
    · exact .some (h.withVars rfl)
    · exact .none

theorem opened (h : Lacks name shown n e f) (scope : Scope) :
    Lacks name shown (n + 1) { e with locals := scope :: e.locals }
      { f with locals := scope :: f.locals } := by
  rw [← h.locals]
  exact h.withLocals (congrArg (· + 1) h.scopes)

theorem pop (h : Lacks name shown (n + 1) e f) : Lacks name shown n e.pop f.pop := by
  unfold Env.pop
  rw [← h.locals]
  exact h.withLocals (by rw [List.length_tail, h.scopes]; rfl)

end Lacks

/-- The macro comes in sight. -/
theorem Lacks.show {m : Macro} {e f : Env} (h : Lacks m.name none 0 e f) :
    Lacks m.name (some m) 0 e (f.define m) := by
  obtain ⟨locals, globals⟩ := e
  obtain ⟨locals', globals'⟩ := f
  obtain rfl : locals = locals' := h.locals
  obtain rfl : locals = [] := List.eq_nil_of_length_eq_zero h.scopes
  refine ⟨rfl, rfl, h.vars, h.hidden, Dict.get?_insert_self .., fun other hother => ?_⟩
  exact (h.macros other hother).trans (Dict.get?_insert_of_ne _ _ hother).symm

/-- The macros of a list that declares none of a name, beside the same list after one of the name. -/
theorem lacks_defineAll {m : Macro} {macros : List Macro} {e f : Env}
    (h : Lacks m.name (some m) 0 e f) (hnone : ∀ other ∈ macros, other.name ≠ m.name) :
    Lacks m.name (some m) 0 (macros.foldl define e) (macros.foldl define f) := by
  refine List.foldl_rel h fun other hmem e f h => ?_
  have hother := hnone other hmem
  obtain ⟨locals, globals⟩ := e
  obtain ⟨locals', globals'⟩ := f
  obtain rfl : locals = locals' := h.locals
  obtain rfl : locals = [] := List.eq_nil_of_length_eq_zero h.scopes
  refine ⟨rfl, rfl, h.vars, ?_, ?_, fun name hname => ?_⟩
  · exact (Dict.get?_insert_of_ne _ _ (Ne.symm hother)).trans h.hidden
  · exact (Dict.get?_insert_of_ne _ _ (Ne.symm hother)).trans h.shown
  · change (globals.macros.insert other.name other).get? name =
      (globals'.macros.insert other.name other).get? name
    rw [Dict.get?_insert, Dict.get?_insert, h.macros name hname]

end Env

/-- The statement that declares a macro. -/
def Macro.declaration (m : Macro) : Statement := .define m.name m.params m.body m.loc

/-- A macro that a program declares is one of all those declared in it. -/
theorem name_mem_declared {program : Program} {m : Macro}
    (hm : m ∈ program.filterMap Statement.macro?) : m.name ∈ Program.declared program := by
  induction program with
  | nil => cases hm
  | cons statement rest ih =>
    rcases List.mem_filterMap.1 hm with ⟨other, hother, hdefines⟩
    rcases List.mem_cons.1 hother with rfl | hrest
    · refine List.mem_append_left _ ?_
      cases other with
      | define name params body loc =>
        cases hdefines
        exact List.mem_cons_self
      | _ => cases hdefines
    · exact List.mem_append_right _ (ih (List.mem_filterMap.2 ⟨other, hrest, hdefines⟩))

/-- What a macro is as a stored function. -/
def Callee.ofStored (m : Macro) : Callee := { Callee.ofMacro m with stored := some m.name }

namespace Run

variable {σ τ α β : Type}

/-! ## Related runs -/

/-- States of two runs of which the first has a function in its store and the second, if it is shown,
a macro of the same name in its global scope. What the first remembers of the function does not
count. -/
structure Paired (J : Outside σ → Outside τ → Prop) (m : Macro) (shown : Option Macro) (n : Nat)
    (s : State σ) (t : State τ) : Prop where
  outside : J s.outside t.outside
  env : Env.Lacks m.name shown n s.env t.env
  iterations : s.iterations = t.iterations
  depth : s.depth = t.depth
  functions : ∀ name, name ≠ m.name → s.functions.get? name = t.functions.get? name
  remembered : ∀ found, s.functions.get? m.name = some found → found = some (.ofStored m)
  named : ∀ name callee, Loaded s.functions name callee → callee.stored = some name
  validated : ∀ name, name ≠ m.name → s.validated.contains name = t.validated.contains name

section

variable {J : Outside σ → Outside τ → Prop} {m : Macro} {shown : Option Macro} {n : Nat}
  {s : State σ} {t : State τ}

theorem Paired.sees (J : Outside σ → Outside τ → Prop) (m : Macro) (shown : Option Macro)
    (n : Nat) : Sees (Paired J m shown n) J where
  outside := fun h => h.outside
  vars := fun h name => h.env.get? name
  update := fun h ho => { h with outside := ho }

theorem Paired.walks (J : Outside σ → Outside τ → Prop) (m : Macro) (shown : Option Macro) :
    Walks (Paired J m shown) J fun _ => True where
  shows := fun n => Paired.sees J m shown n
  vars := fun name _ _ _ _ h => h.env.get? name
  iterations := fun h => h.iterations
  depth := fun h => h.depth
  count := fun h => { h with iterations := congrArg (· + 1) h.iterations }
  define := fun h macros => { h with env := h.env.defineAll macros }
  declare := fun h name value => { h with env := h.env.declare name value }
  assign := fun h name _ value =>
    optionRel_mono (h.env.assign? name value) fun _ _ henv => { h with env := henv }
  push := fun h => { h with env := h.env.opened _ }
  pop := fun h => { h with env := h.env.pop }
  enter := fun h bound =>
    { h with env := (h.env.opened _).declareAll bound, depth := congrArg (· + 1) h.depth }
  leave := fun h => { h with env := h.env.pop, depth := congrArg (· - 1) h.depth }

/-- Both runs learn of another function. -/
theorem Paired.learn (h : Paired J m shown n s t) {name : String} (hne : name ≠ m.name)
    {found : Option Callee} (hnamed : ∀ callee, found = some callee → callee.stored = some name) :
    Paired J m shown n { s with functions := s.functions.insert name found }
      { t with functions := t.functions.insert name found } := by
  refine { h with functions := ?_, remembered := ?_, named := ?_ }
  · intro other hother
    rw [Dict.get?_insert, Dict.get?_insert, h.functions other hother]
  · intro known hknown
    rw [Dict.get?_insert_of_ne _ _ (Ne.symm hne)] at hknown
    exact h.remembered known hknown
  · intro other callee hloaded
    unfold Loaded at hloaded
    rw [Dict.get?_insert] at hloaded
    split at hloaded
    · next heq =>
      rw [heq]
      exact hnamed callee (Option.some.inj hloaded)
    · exact h.named other callee hloaded

/-- The first run learns of the function alone. -/
theorem Paired.learnAlone (h : Paired J m shown n s t) :
    Paired J m shown n
      { s with functions := s.functions.insert m.name (some (.ofStored m)) } t := by
  refine { h with functions := ?_, remembered := ?_, named := ?_ }
  · intro other hother
    rw [Dict.get?_insert_of_ne _ _ hother]
    exact h.functions other hother
  · intro known hknown
    rw [Dict.get?_insert_self] at hknown
    exact (Option.some.inj hknown).symm
  · intro other callee hloaded
    unfold Loaded at hloaded
    rw [Dict.get?_insert] at hloaded
    split at hloaded
    · next heq =>
      cases hloaded
      rw [heq]
      rfl
    · exact h.named other callee hloaded

theorem Paired.vouch (h : Paired J m shown n s t) (name : String) :
    Paired J m shown n { s with validated := name :: s.validated }
      { t with validated := name :: t.validated } := by
  refine { h with validated := fun other hother => ?_ }
  rw [List.contains_cons, List.contains_cons, h.validated other hother]

theorem Paired.vouchAlone (h : Paired J m shown n s t) :
    Paired J m shown n { s with validated := m.name :: s.validated } t := by
  refine { h with validated := fun other hother => ?_ }
  rw [List.contains_cons, h.validated other hother, beq_false_of_ne hother, Bool.false_or]

end

/-! ## What the two setups have in common -/

/-- A call that a handler answers, or the run by itself. -/
def Handled (setup : Setup σ) (call : Call) : Prop :=
  if call.isPredicate then Judges setup call.name
  else setup.context.registry.hasCommand call.name = true

/-- Two setups of which the first stores what the macro is, under a name that no handler has, and
that agree otherwise. The body of the macro calls handlers and itself. -/
structure SameButStored (a : Setup σ) (b : Setup τ) (J : Outside σ → Outside τ → Prop)
    (m : Macro) : Prop extends SameFlow a b J (fun _ _ _ => False) where
  command : ∀ call : CommandCall, Option.Rel
    (fun h h' => ∀ R, Sees R J →
      Follows R (fun _ _ _ => False) (Run.dispatch a call h) (Run.dispatch b call h'))
    (a.context.registry.command? call.name) (b.context.registry.command? call.name)
  callDepth : a.options.maxCallDepth = b.options.maxCallDepth
  unregistered : a.context.registry.hasCommand m.name = false
  function : ∀ name, name ≠ m.name → AsksAlike J
    (a.context.function a.options.actor name) (b.context.function b.options.actor name)
  named : ∀ name, name ≠ m.name → ∀ world function,
    (a.context.function a.options.actor name world).1 = .ok (some function) → function.name = name
  stored : ∀ o p, J o p → ∃ function,
    (a.context.function a.options.actor m.name o.world).1 = .ok (some function) ∧
      (∀ loc (s : State σ), load loc function s = (.ok (.ofStored m), s)) ∧
      J { o with world := (a.context.function a.options.actor m.name o.world).2 } p
  uncancelled : ∀ o p, J o p → (b.context.cancelled p.world).1 = false ∧
    J o { p with world := (b.context.cancelled p.world).2 }
  calls : ∀ call ∈ Program.calls m.body.statements,
    Handled a call ∨ call.isPredicate = false ∧ call.name = m.name

/-- Steps that follow each other without ever being cut. -/
abbrev Together (R : State σ → State τ → Prop) (first : Run σ α) (second : Run τ α) : Prop :=
  Follows R (fun _ _ _ => False) first second

theorem Agree.mono {R R' : State σ → State τ → Prop}
    {Cut : Termination → Outside σ → Outside τ → Prop} {first : Except Termination α × State σ}
    {second : Except Termination α × State τ} (h : Agree R Cut first second)
    (hle : ∀ s t, R s t → R' s t) : Agree R' Cut first second := by
  cases h with
  | both hst => exact .both (hle _ _ hst)
  | cut hcut => exact .cut hcut

theorem Follows.uncut {R : State σ → State τ → Prop} {first : Run σ α} {second : Run τ α}
    (h : ∀ s t, R s t → Agree R (fun _ _ _ => False) (first s) (second t)) :
    Together R first second :=
  ⟨h, fun _ _ _ hcut => hcut⟩

/-- The answer of the first step is one that it gives from the state before. -/
theorem Follows.bind_at {R : State σ → State τ → Prop} {first : Run σ α} {second : Run τ α}
    {k : α → Run σ β} {k' : α → Run τ β} (hfirst : Together R first second)
    (hk : ∀ a s t s' t', R s t → first s = (.ok a, s') → R s' t' →
      Agree R (fun _ _ _ => False) (k a s') (k' a t')) :
    Together R (first >>= k) (second >>= k') := by
  refine .uncut fun s t hst => ?_
  have hagree := hfirst.agree s t hst
  dsimp only [Bind.bind]
  generalize hm : first s = answered at hagree
  generalize second t = answered' at hagree
  cases hagree with
  | @both answer s' t' hst' =>
    cases answer with
    | ok a => exact hk a s t s' t' hst hm hst'
    | error x => exact .both hst'
  | cut hcut => exact hcut.elim

/-- A macro in sight is called, whatever else has its name. -/
theorem execCommand_scoped {setup : Setup σ} {command : CommandCall} {m : Macro} {s : State σ}
    (hscoped : s.env.findMacro? command.name = some m) (enter : Enter σ) :
    execCommand setup enter command s = call setup enter command (.ofMacro m) s :=
  Eq.trans (bind_ok (read_at hscoped)) rfl

/-- A stored function is called if its name means nothing else. -/
theorem execCommand_stored {setup : Setup σ} {command : CommandCall} {callee : Callee}
    {s s' : State σ} (hscoped : s.env.findMacro? command.name = none)
    (hcommand : setup.context.registry.command? command.name = none)
    (hfetch : fetch setup command.name command.loc s = (.ok (some callee), s'))
    (enter : Enter σ) :
    execCommand setup enter command s = call setup enter command callee s' := by
  refine (bind_ok (read_at hscoped)).trans ?_
  dsimp only
  rw [hcommand]
  exact bind_ok hfetch

theorem isKnown_handled {setup : Setup σ} {call : Call} (h : Handled setup call)
    (declared : List String) (s : State σ) : isKnown setup declared call s = (.ok true, s) := by
  refine isKnown_evident ?_
  unfold Handled at h
  unfold Evident
  by_cases hpredicate : call.isPredicate = true
  · rw [if_pos hpredicate] at h ⊢
    exact Bool.or_eq_true_iff.2 (h.imp_left decide_eq_true)
  · rw [if_neg hpredicate] at h ⊢
    rw [h, Bool.or_true]

theorem isKnown_declared {setup : Setup σ} {declared : List String} {call : Call}
    (hcommand : call.isPredicate = false) (h : declared.contains call.name = true)
    (s : State σ) : isKnown setup declared call s = (.ok true, s) := by
  refine isKnown_evident ?_
  unfold Evident
  rw [hcommand, if_neg Bool.false_ne_true, h, Bool.true_or, Bool.true_or]

theorem isKnown_loaded {setup : Setup σ} {call : Call} {callee : Callee} {s : State σ}
    (hcommand : call.isPredicate = false) (h : Loaded s.functions call.name callee)
    (declared : List String) : isKnown setup declared call s = (.ok true, s) := by
  by_cases hevident : Evident setup declared s.env call
  · exact isKnown_evident hevident
  · exact isKnown_eq_true_iff.2 (.stored hcommand hevident (.known h))

/-- Calls that are known without a change need no second look. -/
theorem checkCalls_append {setup : Setup σ} {declared : List String} {known : List Call}
    {s : State σ} (hknown : ∀ call ∈ known, isKnown setup declared call s = (.ok true, s))
    (rest : List Call) :
    checkCalls setup declared (known ++ rest) s = checkCalls setup declared rest s := by
  induction known with
  | nil => rfl
  | cons call more ih =>
    obtain ⟨hcall, hmore⟩ := List.forall_mem_cons.1 hknown
    refine Eq.trans ?_ (ih hmore)
    exact bind_ok hcall

namespace SameButStored

variable {a : Setup σ} {b : Setup τ} {J : Outside σ → Outside τ → Prop} {m : Macro}
  {shown : Option Macro} {n : Nat}

theorem hasCommand (hc : SameButStored a b J m) (name : String) :
    a.context.registry.hasCommand name = b.context.registry.hasCommand name :=
  hasCommand_of_rel (hc.command ⟨name, [], default⟩)

theorem handled_iff (hc : SameButStored a b J m) (call : Call) :
    Handled a call ↔ Handled b call := by
  unfold Handled Judges
  rw [hc.hasPredicate, hc.hasCommand]

/-! ### Looking functions up -/

/-- Other functions are looked up alike. -/
theorem fetch (hc : SameButStored a b J m) {name : String} (hne : name ≠ m.name)
    (loc : Location) :
    Together (Paired J m shown n) (Run.fetch a name loc) (Run.fetch b name loc) := by
  have hsees := Paired.sees J m shown n
  refine .bind (.read fun s t h => h.functions name hne) fun known => ?_
  cases known with
  | some callee => exact .pure callee
  | none =>
    refine .bind_at (hc.ask hsees (hc.function name hne)) ?_
    intro answer s t s' t' _ hask hst'
    rw [ask_eq] at hask
    obtain ⟨hanswer, -⟩ := Prod.mk.inj hask
    replace hanswer := Except.ok.inj hanswer
    cases answer with
    | error e => exact (hc.fail hsees _ loc).agree s' t' hst'
    | ok found =>
      refine (Follows.bind_at (hc.loadFound hsees loc found) ?_).agree s' t' hst'
      intro callee s₁ t₁ s₂ t₂ _ hload hst₂
      refine .both (hst₂.learn hne ?_)
      rintro c rfl
      obtain ⟨function, rfl, hstored⟩ := loadFound_ok hload c rfl
      rw [hstored, hc.named name hne s.world function hanswer]

/-- The function itself is looked up by the first run alone. -/
theorem fetchAlone (hc : SameButStored a b J m) (loc : Location) {s : State σ} {t : State τ}
    (h : Paired J m shown n s t) :
    ∃ s', Run.fetch a m.name loc s = (.ok (some (.ofStored m)), s') ∧ Paired J m shown n s' t ∧
      Loaded s'.functions m.name (.ofStored m) := by
  cases hknown : s.functions.get? m.name with
  | some found =>
    obtain rfl := h.remembered found hknown
    refine ⟨s, ?_, h, hknown⟩
    exact Eq.trans (bind_ok (read_at hknown)) rfl
  | none =>
    obtain ⟨function, hanswer, hload, hkept⟩ := hc.stored _ _ h.outside
    change (a.context.function a.options.actor m.name s.world).1 = _ at hanswer
    let s₁ := s.withOutside { s.outside with
      world := (a.context.function a.options.actor m.name s.world).2 }
    have hs₁ : Paired J m shown n s₁ t := { h with outside := hkept }
    refine ⟨{ s₁ with functions := s₁.functions.insert m.name (some (.ofStored m)) }, ?_,
      hs₁.learnAlone, Dict.get?_insert_self ..⟩
    have hask : Run.ask (a.context.function a.options.actor m.name) s =
        (.ok (.ok (some function)), s₁) := by
      rw [ask_eq, hanswer]
    have hfound : Run.loadFound loc (some function) s₁ = (.ok (some (.ofStored m)), s₁) :=
      bind_ok (hload loc s₁)
    refine (bind_ok (read_at hknown)).trans ((bind_ok hask).trans ?_)
    exact (bind_ok hfound).trans rfl

/-! ### Checking names -/

/-- A call that both checks judge alike: the second knows the name of the macro, and any other name
is declared to both or to none, unless a handler has it. -/
structure Grants (b : Setup τ) (m : Macro) (shown : Option Macro) (declared declared' : List String)
    (call : Call) : Prop where
  own : call.name = m.name → shown.isSome = true ∨ declared'.contains m.name = true
  others : call.isPredicate = false → call.name ≠ m.name →
    (declared.contains call.name || b.context.registry.hasCommand call.name) =
      (declared'.contains call.name || b.context.registry.hasCommand call.name)

theorem isKnown (hc : SameButStored a b J m) {declared declared' : List String} {call : Call}
    (hgrants : Grants b m shown declared declared' call) :
    Together (Paired J m shown n) (Run.isKnown a declared call)
      (Run.isKnown b declared' call) := by
  unfold Run.isKnown
  rw [hc.hasPredicate, hc.hasCommand]
  by_cases hpredicate : call.isPredicate = true
  · rw [if_pos hpredicate, if_pos hpredicate]
    exact .pure _
  rw [if_neg hpredicate, if_neg hpredicate]
  by_cases hname : call.name = m.name
  · refine .uncut fun s t hst => ?_
    have hscoped : t.env.findMacro? call.name = (s.env.findMacro? call.name).or shown := by
      rw [hname]
      exact hst.env.findMacro?_self
    have hknown : (declared'.contains call.name || (t.env.findMacro? call.name).isSome ||
        b.context.registry.hasCommand call.name) = true := by
      rw [hscoped, Option.isSome_or]
      rcases hgrants.own hname with hshown | hdeclared
      · simp [hshown]
      · rw [hname, hdeclared]
        rfl
    change Agree _ _
      ((if declared.contains call.name || (s.env.findMacro? call.name).isSome ||
          b.context.registry.hasCommand call.name then pure true
        else do return (← Run.fetch a call.name call.loc).isSome : Run σ Bool) s)
      ((if declared'.contains call.name || (t.env.findMacro? call.name).isSome ||
          b.context.registry.hasCommand call.name then pure true
        else do return (← Run.fetch b call.name call.loc).isSome : Run τ Bool) t)
    rw [if_pos hknown]
    by_cases hfirst : (declared.contains call.name || (s.env.findMacro? call.name).isSome ||
        b.context.registry.hasCommand call.name) = true
    · rw [if_pos hfirst]
      exact .both hst
    · rw [if_neg hfirst, hname]
      obtain ⟨s', hfetch, hst', -⟩ := hc.fetchAlone call.loc hst
      rw [bind_ok hfetch]
      exact .both hst'
  · refine .bind (.read fun s t h => h.env.findMacro?_of_ne hname) fun found => ?_
    have hsame := hgrants.others (Bool.eq_false_iff.2 hpredicate) hname
    have hboth : (declared.contains call.name || found.isSome ||
        b.context.registry.hasCommand call.name) =
        (declared'.contains call.name || found.isSome ||
          b.context.registry.hasCommand call.name) := by
      rw [Bool.or_right_comm, hsame, Bool.or_right_comm]
    rw [hboth]
    split
    · exact .pure _
    · exact .bind (hc.fetch hname _) fun _ => .pure _

theorem checkCalls (hc : SameButStored a b J m) {declared declared' : List String}
    {calls : List Call} (hgrants : ∀ call ∈ calls, Grants b m shown declared declared' call) :
    Together (Paired J m shown n) (Run.checkCalls a declared calls)
      (Run.checkCalls b declared' calls) := by
  induction calls with
  | nil => exact .pure ()
  | cons call rest ih =>
    obtain ⟨hcall, hrest⟩ := List.forall_mem_cons.1 hgrants
    refine .bind (hc.isKnown hcall) fun known => ?_
    cases known with
    | true => exact ih hrest
    | false => exact hc.fail (Paired.sees J m shown n) _ _

/-- While the macro is in sight, other code is checked alike. -/
theorem validate (hc : SameButStored a b J m) (statements : List Statement) :
    Together (Paired J m (some m) n) (Run.validate a statements) (Run.validate b statements) :=
  hc.checkCalls fun _ _ => ⟨fun _ => .inl rfl, fun _ _ => rfl⟩

theorem validateOnce (hc : SameButStored a b J m) {callee : Callee}
    (hcallee : callee.stored ≠ some m.name) :
    Together (Paired J m (some m) n) (Run.validateOnce a callee) (Run.validateOnce b callee) := by
  unfold Run.validateOnce
  cases hstored : callee.stored with
  | none => exact .pure ()
  | some name =>
    have hne : name ≠ m.name := fun heq => hcallee (hstored.trans (congrArg some heq))
    refine .bind (.read fun s t h => h.validated name hne) fun done => ?_
    cases done with
    | true => exact .pure ()
    | false =>
      exact .bind (hc.validate callee.body) fun _ =>
        .modify (fun s t h => h.vouch name) fun _ => rfl

/-! ### Calls -/

variable {run : List Statement → Run σ Unit} {run' : List Statement → Run τ Unit}

/-- What remains of a call once its arguments are bound and its body is checked. -/
theorem enterFrame (hc : SameButStored a b J m)
    (hrun : ∀ n body, Together (Paired J m (some m) (n + 1)) (run body) (run' body))
    (command : CommandCall) (bound : List (String × Value)) (body : List Statement) :
    Together (Paired J m (some m) n)
      (do
        let depth ← read (·.depth + 1)
        Run.trace a command.loc (.macroEntered command.name depth)
        inFrame bound (run body))
      (do
        let depth ← read (·.depth + 1)
        Run.trace b command.loc (.macroEntered command.name depth)
        inFrame bound (run' body)) := by
  have hwalks := Paired.walks J m (some m)
  refine .bind (.read fun s t h => by rw [h.depth]) fun depth =>
    .bind (hc.flowTrace hwalks _ rfl) fun _ => ?_
  exact .inFrame hwalks bound (hrun n body)

/-- What is not the function is called alike. -/
theorem callOther (hc : SameButStored a b J m)
    (hrun : ∀ n body, Together (Paired J m (some m) (n + 1)) (run body) (run' body))
    (command : CommandCall) {callee : Callee} (hcallee : callee.stored ≠ some m.name) :
    Together (Paired J m (some m) n) (Run.call a (some run) command callee)
      (Run.call b (some run') command callee) :=
  .bind (hc.bindArgs (Paired.sees J m (some m) n) _ _ _ _) fun bound =>
    .bind (hc.validateOnce hcallee) fun _ => hc.enterFrame hrun command bound callee.body

/-- At its first call the function is checked, by the first run alone. -/
theorem validateAlone (hc : SameButStored a b J m) {s : State σ} {t : State τ}
    (h : Paired J m (some m) n s t) (hloaded : Loaded s.functions m.name (.ofStored m)) :
    ∃ s', Run.validateOnce a (.ofStored m) s = (.ok (), s') ∧ Paired J m (some m) n s' t := by
  have hcheck : Run.validate a m.body.statements s = (.ok (), s) := by
    have hknown : ∀ call ∈ Program.calls m.body.statements,
        Run.isKnown a (Program.declared m.body.statements) call s = (.ok true, s) := by
      intro call hcall
      rcases hc.calls call hcall with hhandled | ⟨hcommand, hname⟩
      · exact isKnown_handled hhandled _ s
      · exact isKnown_loaded hcommand (hname ▸ hloaded) _
    have happend := checkCalls_append hknown []
    rwa [List.append_nil] at happend
  change ∃ s', (if s.validated.contains m.name then pure ()
    else do
      Run.validate a m.body.statements
      modify fun state => { state with validated := m.name :: state.validated } : Run σ Unit) s =
    (.ok (), s') ∧ _
  split
  · exact ⟨s, rfl, h⟩
  · rw [bind_ok hcheck]
    exact ⟨_, rfl, h.vouchAlone⟩

/-- The function and the macro are called alike. -/
theorem callOwn (hc : SameButStored a b J m)
    (hrun : ∀ n body, Together (Paired J m (some m) (n + 1)) (run body) (run' body))
    (command : CommandCall) {s : State σ} {t : State τ} (h : Paired J m (some m) n s t)
    (hloaded : Loaded s.functions m.name (.ofStored m)) :
    Agree (Paired J m (some m) n) (fun _ _ _ => False)
      (Run.call a (some run) command (.ofStored m) s)
      (Run.call b (some run') command (.ofMacro m) t) := by
  -- The evaluation of the arguments forgets no function.
  have hsees : Sees (fun s t => Paired J m (some m) n s t ∧
      Loaded s.functions m.name (.ofStored m)) J :=
    { outside := fun h => h.1.outside
      vars := fun h name => h.1.env.get? name
      update := fun h ho => ⟨{ h.1 with outside := ho }, h.2⟩ }
  refine .bind (fun _ _ h => h.1) ((hc.bindArgs hsees _ _ _ _).agree s t ⟨h, hloaded⟩)
    (fun bound s₁ t₁ h₁ => ?_) fun _ _ _ _ hcut => hcut.elim
  obtain ⟨s₂, hvalid, h₂⟩ := hc.validateAlone h₁.1 h₁.2
  rw [bind_ok hvalid]
  exact (hc.enterFrame hrun command bound m.body.statements).agree s₂ t₁ h₂

/-- Where no further call may be opened, whatever is called is refused alike. -/
theorem refuse (hc : SameButStored a b J m) (command : CommandCall) (callee callee' : Callee) :
    Together (Paired J m (some m) n) (Run.call a none command callee)
      (Run.call b none command callee') := by
  unfold Run.call
  rw [hc.callDepth]
  exact hc.fail (Paired.sees J m (some m) n) _ _

end SameButStored

/-! ## Running -/

/-- What the running of commands needs of calls: that of the function beside that of the macro, and
those of all else. -/
structure CallsAlike (a : Setup σ) (b : Setup τ) (J : Outside σ → Outside τ → Prop) (m : Macro)
    (enter : Enter σ) (enter' : Enter τ) : Prop where
  others : ∀ n command callee, callee.stored ≠ some m.name →
    Together (Paired J m (some m) n) (Run.call a enter command callee)
      (Run.call b enter' command callee)
  own : ∀ {n s t} command, Paired J m (some m) n s t →
    Loaded s.functions m.name (.ofStored m) →
    Agree (Paired J m (some m) n) (fun _ _ _ => False)
      (Run.call a enter command (.ofStored m) s) (Run.call b enter' command (.ofMacro m) t)

namespace SameButStored

variable {a : Setup σ} {b : Setup τ} {J : Outside σ → Outside τ → Prop} {m : Macro} {n : Nat}
  {enter : Enter σ} {enter' : Enter τ}

theorem command?_own (hc : SameButStored a b J m) :
    a.context.registry.command? m.name = none := by
  have h := hc.unregistered
  unfold Registry.hasCommand Dict.contains at h
  exact Option.isSome_eq_false_iff.1 h |> Option.isNone_iff_eq_none.1

/-- Other names mean the same. -/
theorem execOther (hc : SameButStored a b J m) (hcalls : CallsAlike a b J m enter enter')
    {command : CommandCall} (hname : command.name ≠ m.name) :
    Together (Paired J m (some m) n) (Run.execCommand a enter command)
      (Run.execCommand b enter' command) := by
  refine .bind (.read fun s t h => h.env.findMacro?_of_ne hname) fun found => ?_
  cases found with
  | some other => exact hcalls.others n command _ nofun
  | none =>
    have hcommand := hc.command command
    revert hcommand
    dsimp only
    cases a.context.registry.command? command.name <;>
      cases b.context.registry.command? command.name <;> intro hcommand
    · refine .bind_at (hc.fetch hname _) ?_
      intro callee s t s' t' _ hfetch hst'
      cases callee with
      | none => exact (hc.fail (Paired.sees J m (some m) n) _ _).agree s' t' hst'
      | some callee =>
        refine (hcalls.others n command callee fun hstored => hname ?_).agree s' t' hst'
        exact Option.some.inj ((hst'.named _ _ (fetch_loaded hfetch)).symm.trans hstored)
    · cases hcommand
    · cases hcommand
    · cases hcommand with
      | some h => exact h _ (Paired.sees J m (some m) n)

/-- The name of the function means a macro of an inner scope, or the function and the macro. -/
theorem execOwn (hc : SameButStored a b J m) (hcalls : CallsAlike a b J m enter enter')
    {command : CommandCall} (hname : command.name = m.name) :
    Together (Paired J m (some m) n) (Run.execCommand a enter command)
      (Run.execCommand b enter' command) := by
  refine .uncut fun s t hst => ?_
  have hsecond := hst.env.findMacro?_self
  rw [← hname] at hsecond
  cases hscoped : s.env.findMacro? command.name with
  | some other =>
    rw [hscoped, Option.some_or] at hsecond
    rw [execCommand_scoped hscoped, execCommand_scoped hsecond]
    exact (hcalls.others n command (.ofMacro other) nofun).agree s t hst
  | none =>
    rw [hscoped, Option.none_or] at hsecond
    obtain ⟨s', hfetch, hst', hloaded⟩ := hc.fetchAlone command.loc hst
    have hcommand := hc.command?_own
    rw [← hname] at hfetch hcommand
    rw [execCommand_stored hscoped hcommand hfetch, execCommand_scoped hsecond]
    exact hcalls.own command hst' hloaded

theorem execCommand (hc : SameButStored a b J m) (hcalls : CallsAlike a b J m enter enter')
    (command : CommandCall) :
    Together (Paired J m (some m) n) (Run.execCommand a enter command)
      (Run.execCommand b enter' command) := by
  by_cases hname : command.name = m.name
  · exact hc.execOwn hcalls hname
  · exact hc.execOther hcalls hname

theorem executes (hc : SameButStored a b J m) {level : Nat}
    (hcalls : CallsAlike a b J m (enterAt a level) (enterAt b level)) :
    Executes a b (Paired J m (some m)) (fun _ => True) (fun _ _ _ => False) (enterAt a level)
      (enterAt b level) where
  steady := (Steady.pervasive a).enterAt level
  steady' := (Steady.pervasive b).enterAt level
  command := fun _ command _ => hc.execCommand hcalls command

theorem callsAlike (hc : SameButStored a b J m) (level : Nat) :
    CallsAlike a b J m (enterAt a level) (enterAt b level) := by
  induction level with
  | zero =>
    refine ⟨fun n command callee _ => hc.refuse command callee callee, ?_⟩
    intro n s t command hst _
    exact (hc.refuse command (.ofStored m) (.ofMacro m)).agree s t hst
  | succ level ih =>
    have hrun : ∀ n body, Together (Paired J m (some m) (n + 1)) (Run.execAt a level body)
        (Run.execAt b level body) := by
      intro n body
      have hwalks := Paired.walks J m (some m)
      rw [execAt_eq, execAt_eq]
      exact .bind (SameFlow.hoist hwalks body) fun _ =>
        hc.execEach hwalks (hc.executes ih) body (fun _ _ => trivial) (n + 1)
    exact ⟨fun n command callee hcallee => hc.callOther hrun command hcallee,
      fun command hst hloaded => hc.callOwn hrun command hst hloaded⟩

/-! ### Whole programs -/

variable {program : Program}

/-- Both programs pass or fail their checks alike. -/
theorem checkProgram (hc : SameButStored a b J m)
    (hclear : ∀ call ∈ Program.calls program, call.isPredicate = false →
      call.name ∈ Program.declared m.body.statements →
      call.name ∈ Program.declared program ∨ b.context.registry.hasCommand call.name = true) :
    Together (Paired J m none n) (Run.validate a program)
      (Run.validate b (m.declaration :: program)) := by
  have hcalls : Program.calls (m.declaration :: program) =
      Program.calls m.body.statements ++ Program.calls program := by
    rw [← calls_ofBody]
    rfl
  have hdeclared : Program.declared (m.declaration :: program) =
      m.name :: (Program.declared m.body.statements ++ Program.declared program) := by
    rw [← declared_ofBody]
    rfl
  have hgrants : ∀ call ∈ Program.calls program, Grants b m none (Program.declared program)
      (Program.declared (m.declaration :: program)) call := by
    intro call hcall
    rw [hdeclared]
    refine ⟨fun _ => .inr (by simp), fun hpredicate hname => ?_⟩
    rw [Bool.eq_iff_iff]
    simp only [Bool.or_eq_true, List.contains_iff_mem, List.mem_cons, List.mem_append, hname,
      false_or]
    constructor
    · exact fun h => h.imp_left .inr
    · rintro ((hinner | hother) | hregistered)
      · exact hclear call hcall hpredicate hinner
      · exact .inl hother
      · exact .inr hregistered
  refine .uncut fun s t hst => ?_
  have hown : (Program.declared (m.declaration :: program)).contains m.name = true := by
    rw [hdeclared]
    simp
  have hknown : ∀ call ∈ Program.calls m.body.statements,
      Run.isKnown b (Program.declared (m.declaration :: program)) call t = (.ok true, t) := by
    intro call hcall
    rcases hc.calls call hcall with hhandled | ⟨hcommand, hname⟩
    · exact isKnown_handled ((hc.handled_iff call).1 hhandled) _ t
    · exact isKnown_declared hcommand (hname ▸ hown) t
  have hskip : Run.validate b (m.declaration :: program) t =
      Run.checkCalls b (Program.declared (m.declaration :: program)) (Program.calls program) t := by
    unfold Run.validate
    rw [hcalls]
    exact checkCalls_append hknown _
  rw [hskip]
  exact (hc.checkCalls hgrants).agree s t hst

/-- To run the declaration is to look whether the run has been cancelled. -/
theorem execDeclaration (hc : SameButStored a b J m) {s : State σ} {t : State τ}
    (hst : Paired J m (some m) n s t) (enter' : Enter τ) (program : Program) :
    ∃ t', Run.execEach b enter' (m.declaration :: program) t = Run.execEach b enter' program t' ∧
      Paired J m (some m) n s t' := by
  obtain ⟨hanswer, hkept⟩ := hc.uncancelled _ _ hst.outside
  let t' := t.withOutside { t.outside with world := (b.context.cancelled t.world).2 }
  refine ⟨t', ?_, { hst with outside := hkept }⟩
  have hcheck : Run.checkLocated b m.declaration t = (.ok (), t') := by
    refine (bind_ok (ask_eq _ t)).trans ?_
    rw [show (b.context.cancelled t.world).1 = false from hanswer]
    rfl
  exact bind_ok hcheck

/-- The program, and the program after the declaration, end alike. -/
theorem body (hc : SameButStored a b J m) (hdeclared : m.name ∉ Program.declared program)
    (hclear : ∀ call ∈ Program.calls program, call.isPredicate = false →
      call.name ∈ Program.declared m.body.statements →
      call.name ∈ Program.declared program ∨ b.context.registry.hasCommand call.name = true)
    {s : State σ} {t : State τ} (hst : Paired J m none 0 s t) :
    Agree (fun s t => J s.outside t.outside) (fun _ _ _ => False) (Run.body a program s)
      (Run.body b (m.declaration :: program) t) := by
  refine .bind (fun _ _ h => h.outside) ((hc.checkProgram hclear).agree s t hst)
    (fun _ s t hst => ?_) fun _ _ _ _ hcut => hcut.elim
  have hothers : ∀ other ∈ program.filterMap Statement.macro?, other.name ≠ m.name :=
    fun other hother heq => hdeclared (heq ▸ name_mem_declared hother)
  rw [execAt_eq, execAt_eq, ← hc.callDepth]
  -- The declaration is hoisted first, and the first run has nothing beside it.
  have hshown : Paired J m (some m) 0
      { s with env := (program.filterMap Statement.macro?).foldl Env.define s.env }
      { t with env := (program.filterMap Statement.macro?).foldl Env.define (t.env.define m) } :=
    { hst with env := Env.lacks_defineAll hst.env.show hothers }
  obtain ⟨t', hdeclaration, hst'⟩ :=
    hc.execDeclaration hshown (enterAt b a.options.maxCallDepth) program
  have hsecond : execStatements b (enterAt b a.options.maxCallDepth) (m.declaration :: program) t =
      Run.execEach b (enterAt b a.options.maxCallDepth) program t' := hdeclaration
  rw [hsecond]
  have hexec := (hc.execEach (Paired.walks J m (some m))
    (hc.executes (hc.callsAlike a.options.maxCallDepth)) program (fun _ _ => trivial) 0).agree
      _ t' hst'
  exact hexec.mono fun _ _ h => h.outside

end SameButStored

end Run

end BlockScript
