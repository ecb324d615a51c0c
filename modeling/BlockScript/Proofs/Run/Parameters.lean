import Mathlib.Data.List.Nodup
import BlockScript.Proofs.Run.Coverage
import BlockScript.Proofs.Run.Machinery

/-!
# Parameters and their types

An argument is compared with the type of its parameter when it is placed, and a default is converted
to that type when its function is loaded. So where a body begins, its parameters have values of the
declared types. An optional parameter that is given nothing is not declared at all, and its name then
means what the global scope says.
-/
namespace BlockScript
set_option autoImplicit false

/-! ## Lookup in a frame -/

namespace Env

theorem getLocal?_frame (name : String) (b : Bindings) (outer : List Scope) :
    getLocal? name (⟨b, true⟩ :: outer) = b.vars.get? name := by
  unfold getLocal?
  dsimp only
  cases b.vars.get? name with
  | some value => rfl
  | none => rfl

theorem declare_eq {env : Env} {scope : Scope} {outer : List Scope}
    (h : env.locals = scope :: outer) (key : String) (value : Value) :
    env.declare key value =
      { env with
        locals := { scope with
          bindings := { scope.bindings with vars := scope.bindings.vars.insert key value } }
            :: outer } := by
  unfold declare modifyInnermost
  rw [h]

theorem globals_declareAll (bound : List (String × Value)) {env : Env} {scope : Scope}
    {outer : List Scope} (h : env.locals = scope :: outer) :
    (bound.foldl (fun env (key, value) => env.declare key value) env).globals = env.globals := by
  induction bound generalizing env scope with
  | nil => rfl
  | cons first rest ih =>
    rw [List.foldl_cons]
    dsimp only
    rw [declare_eq h, ih rfl]

/-- Of two values with one name the later is found. -/
theorem get?_declareAll (bound : List (String × Value)) {env : Env} {b : Bindings}
    {outer : List Scope} (h : env.locals = ⟨b, true⟩ :: outer) (name : String) :
    (bound.foldl (fun env (key, value) => env.declare key value) env).get? name =
      (bound.reverse.lookup name).or (env.get? name) := by
  induction bound generalizing env b with
  | nil => rfl
  | cons first rest ih =>
    obtain ⟨key, value⟩ := first
    rw [List.foldl_cons]
    dsimp only
    rw [declare_eq h, ih rfl, List.reverse_cons, List.lookup_append, Option.or_assoc]
    congr 1
    unfold get?
    rw [h, getLocal?_frame, getLocal?_frame, Dict.get?_insert, Dict.lookup_cons_if]
    by_cases hkey : name = key
    · rw [if_pos hkey, if_pos hkey]
      rfl
    · rw [if_neg hkey, if_neg hkey]
      rfl

/-- What a name means at the start of a call. -/
theorem get?_entered (bound : List (String × Value)) (env : Env) (name : String) :
    (bound.foldl (fun env (key, value) => env.declare key value) env.pushFrame).get? name =
      (bound.reverse.lookup name).or (env.globals.vars.get? name) := by
  rw [get?_declareAll bound rfl]
  congr 1

/-- Macros hide no variable. -/
theorem vars_defineAll (macros : List Macro) (env : Env) (name : String) :
    (macros.foldl define env).get? name = env.get? name ∧
      (macros.foldl define env).globals.vars = env.globals.vars := by
  induction macros generalizing env with
  | nil => exact ⟨rfl, rfl⟩
  | cons m rest ih =>
    have hfirst : (env.define m).get? name = env.get? name ∧
        (env.define m).globals.vars = env.globals.vars := by
      unfold define modifyInnermost get?
      cases hlocals : env.locals <;> exact ⟨rfl, rfl⟩
    rw [List.foldl_cons, (ih _).1, (ih _).2]
    exact hfirst

end Env

/-! ## Slots -/

/-- The value that a parameter is declared with: its argument, or else its default. -/
def Slot.supplied? (slot : Slot) : Option Value := slot.value.or slot.param.default

/-- A parameter whose default, if it has one, is of its type. -/
def CallParam.Typed (param : CallParam) : Prop :=
  ∀ value ∈ param.default, value.hasType param.type = true

/-- What is supplied to a parameter is of its type. -/
def Slot.Typed (slot : Slot) : Prop :=
  ∀ value ∈ slot.supplied?, value.hasType slot.param.type = true

namespace Binding

theorem ofParams_params (params : List CallParam) :
    (ofParams params).slots.map Slot.param = params := by
  unfold ofParams
  rw [List.map_map]
  exact List.map_id params

theorem ofParams_typed {params : List CallParam} (h : ∀ param ∈ params, param.Typed) :
    ∀ slot ∈ (ofParams params).slots, slot.Typed := by
  intro slot hslot
  obtain ⟨param, hparam, rfl⟩ := List.mem_map.1 hslot
  exact h param hparam

variable {given : Nat} {slots slots' : List Slot}

/-- A slot can be filled exactly if it is empty and the value is of its type. -/
theorem fill_eq_ok_iff {index : Nat} {value : Value} :
    fill given slots index value = .ok slots' ↔
      ∃ param, slots[index]? = some ⟨param, none⟩ ∧ value.hasType param.type = true ∧
        slots' = slots.set index ⟨param, some value⟩ := by
  unfold fill
  constructor
  · intro h
    split at h
    · cases h
    · cases h
    · next param hempty =>
      split at h
      · next htype =>
        cases h
        exact ⟨param, hempty, htype, rfl⟩
      · cases h
  · rintro ⟨param, hempty, htype, rfl⟩
    rw [hempty]
    exact if_pos htype

/-- Filling a slot changes no parameter and puts a value of its type in. -/
theorem fill_ok {index : Nat} {value : Value} (h : fill given slots index value = .ok slots') :
    slots'.map Slot.param = slots.map Slot.param ∧
      ((∀ slot ∈ slots, slot.Typed) → ∀ slot ∈ slots', slot.Typed) := by
  obtain ⟨param, hempty, htype, rfl⟩ := fill_eq_ok_iff.1 h
  constructor
  · have hsame : (slots.map Slot.param)[index]? = some param := by
      rw [List.getElem?_map, hempty]
      rfl
    obtain ⟨hbound, hvalue⟩ := List.getElem?_eq_some_iff.1 hsame
    rw [List.map_set, ← hvalue, List.set_getElem_self]
  · intro htyped slot hmem
    rcases List.mem_or_eq_of_mem_set hmem with hold | rfl
    · exact htyped slot hold
    · rintro _ ⟨⟩
      exact htype

/-- An argument that is placed fills the next slot, or else the slot of its name. -/
theorem filled_of_place {binding binding' : Binding} {key : Option String} {value : Value}
    (h : place given binding key value = .ok binding') :
    ∃ index, fill given binding.slots index value = .ok binding'.slots ∧
      match key with
      | none => index = binding.next
      | some name => (binding.slots.findIdx? fun slot => slot.param.name = name) = some index := by
  unfold place at h
  cases key with
  | none =>
    cases hfill : fill given binding.slots binding.next value with
    | error e =>
      dsimp only at h
      rw [hfill] at h
      cases h
    | ok slots =>
      dsimp only at h
      rw [hfill] at h
      cases h
      exact ⟨_, hfill, rfl⟩
  | some name =>
    dsimp only at h
    split at h
    · cases h
    · next index hfound =>
      cases hfill : fill given binding.slots index value with
      | error e =>
        rw [hfill] at h
        cases h
      | ok slots =>
        rw [hfill] at h
        cases h
        exact ⟨_, hfill, hfound⟩

theorem place_ok {binding binding' : Binding} {key : Option String} {value : Value}
    (h : place given binding key value = .ok binding') :
    binding'.slots.map Slot.param = binding.slots.map Slot.param ∧
      ((∀ slot ∈ binding.slots, slot.Typed) → ∀ slot ∈ binding'.slots, slot.Typed) := by
  obtain ⟨index, hfill, -⟩ := filled_of_place h
  exact fill_ok hfill

/-- Every value that is bound was supplied, and only optional parameters go without one. -/
theorem bound_ok {bound : List (String × Value)} (h : Binding.bound slots = .ok bound) :
    bound = slots.filterMap (fun slot => slot.supplied?.map fun value => (slot.param.name, value)) ∧
      ∀ slot ∈ slots, slot.supplied? = none → slot.param.optional = true := by
  induction slots generalizing bound with
  | nil =>
    cases h
    exact ⟨rfl, fun slot hslot => absurd hslot List.not_mem_nil⟩
  | cons slot rest ih =>
    unfold Binding.bound at h
    rw [List.filterMap_cons]
    cases hsupplied : slot.supplied? with
    | some value =>
      have hvalue : slot.value.or slot.param.default = some value := hsupplied
      rw [hvalue] at h
      cases hrest : Binding.bound rest with
      | error e =>
        rw [hrest] at h
        cases h
      | ok others =>
        rw [hrest] at h
        cases h
        obtain ⟨heq, hoptional⟩ := ih hrest
        refine ⟨by rw [heq]; rfl, ?_⟩
        intro other hother hnone
        rcases List.mem_cons.1 hother with rfl | hother
        · rw [hsupplied] at hnone
          cases hnone
        · exact hoptional other hother hnone
    | none =>
      have hvalue : slot.value.or slot.param.default = none := hsupplied
      rw [hvalue] at h
      dsimp only at h
      split at h
      · next hopt =>
        obtain ⟨heq, hoptional⟩ := ih h
        refine ⟨heq, ?_⟩
        intro other hother hnone
        rcases List.mem_cons.1 hother with rfl | hother
        · exact hopt
        · exact hoptional other hother hnone
      · cases h

end Binding

/-- What the name of a parameter means: a value that one of the candidates of this name was supplied
with, of the type that the candidate declares, or, if nothing was supplied to the parameter, which is
optional then, whatever the global scope says. -/
def Slot.Means (candidates : List Slot) (env : Env) (slot : Slot) : Prop :=
  (∃ other ∈ candidates, other.param.name = slot.param.name ∧
    ∃ value ∈ other.supplied?, value.hasType other.param.type = true ∧
      env.get? slot.param.name = some value) ∨
  slot.supplied? = none ∧ slot.param.optional = true ∧
    env.get? slot.param.name = env.globals.vars.get? slot.param.name

/-- Where the names differ, each parameter has its own value. -/
theorem Slot.Means.own {slots : List Slot} {env : Env} {slot : Slot} (h : slot.Means slots env)
    (hnames : (slots.map fun slot => slot.param.name).Nodup) (hslot : slot ∈ slots) :
    slot.Means [slot] env := by
  rcases h with ⟨other, hother, hname, hvalue⟩ | hnothing
  · obtain rfl : other = slot := List.inj_on_of_nodup_map hnames hother hslot hname
    exact .inl ⟨other, List.mem_singleton_self _, rfl, hvalue⟩
  · exact .inr hnothing

theorem means_of_bound {slots : List Slot} {bound : List (String × Value)}
    (hbound : Binding.bound slots = .ok bound) (htyped : ∀ slot ∈ slots, slot.Typed) (env : Env)
    {slot : Slot} (hslot : slot ∈ slots) :
    slot.Means slots
      (bound.foldl (fun env (key, value) => env.declare key value) env.pushFrame) := by
  obtain ⟨heq, hoptional⟩ := Binding.bound_ok hbound
  unfold Slot.Means
  rw [Env.get?_entered]
  cases hfound : bound.reverse.lookup slot.param.name with
  | some value =>
    obtain ⟨later, earlier, hsplit, -⟩ := List.lookup_eq_some_iff.1 hfound
    have hmem : (slot.param.name, value) ∈ bound := by
      rw [← List.mem_reverse, hsplit]
      exact List.mem_append_right _ List.mem_cons_self
    rw [heq] at hmem
    obtain ⟨other, hother, hpair⟩ := List.mem_filterMap.1 hmem
    obtain ⟨v, hsupplied, hpair⟩ := Option.map_eq_some_iff.1 hpair
    obtain ⟨hname, rfl⟩ := Prod.mk.inj hpair
    exact .inl ⟨other, hother, hname, v, hsupplied, htyped other hother v hsupplied, rfl⟩
  | none =>
    have hnothing : slot.supplied? = none := by
      cases hsupplied : slot.supplied? with
      | none => rfl
      | some value =>
        have hmem : (slot.param.name, value) ∈ bound := by
          rw [heq]
          exact List.mem_filterMap.2 ⟨slot, hslot, by rw [hsupplied]; rfl⟩
        have hdiffers := List.lookup_eq_none_iff.1 hfound _ (List.mem_reverse.2 hmem)
        rw [bne_self_eq_false] at hdiffers
        cases hdiffers
    refine .inr ⟨hnothing, hoptional slot hslot hnothing, ?_⟩
    rw [Env.globals_declareAll bound rfl]
    rfl

namespace Run

variable {σ α β : Type}

theorem ofBinding_ok {callee : String} {loc : Location} {answer : Except BindError α} {a : α}
    {s s' : State σ} (h : ofBinding callee loc answer s = (.ok a, s')) : answer = .ok a := by
  cases answer with
  | ok b =>
    cases h
    rfl
  | error e => cases h

theorem placeArgs_ok {setup : Setup σ} {callee : String} {loc : Location} {given : Nat}
    {args : List (Arg Expr)} {binding binding' : Binding} {s s' : State σ}
    (h : placeArgs setup callee loc given binding args s = (.ok binding', s')) :
    binding'.slots.map Slot.param = binding.slots.map Slot.param ∧
      ((∀ slot ∈ binding.slots, slot.Typed) → ∀ slot ∈ binding'.slots, slot.Typed) := by
  induction args generalizing binding s with
  | nil =>
    cases h
    exact ⟨rfl, id⟩
  | cons arg rest ih =>
    obtain ⟨value, s₁, -, h⟩ := bind_eq_ok h
    obtain ⟨placed, s₂, hplaced, h⟩ := bind_eq_ok h
    obtain ⟨hparams, htyped⟩ := ih h
    have hplace : binding.place given arg.key value = .ok placed := ofBinding_ok hplaced
    obtain ⟨hfirst, hkeeps⟩ := Binding.place_ok hplace
    exact ⟨hparams.trans hfirst, fun hslots => htyped (hkeeps hslots)⟩

/-! ## Functions in memory -/

/-- Every function in memory has been loaded from an answer of the store. -/
def FromStore (setup : Setup σ) (s : State σ) : Prop :=
  ∀ name callee, Loaded s.functions name callee → ∃ world function loc s₁ s₂,
    (setup.context.function setup.options.actor name world).1 = .ok (some function) ∧
      load loc function (s₁ : State σ) = (.ok callee, s₂)

theorem loadParam_typed {function : String} {loc : Location} {param : FunctionParam}
    {loaded : CallParam} {s s' : State σ}
    (h : loadParam function loc param s = (.ok loaded, s')) : loaded.Typed := by
  unfold loadParam at h
  cases hdefault : param.default with
  | none =>
    rw [hdefault] at h
    cases h
    exact nofun
  | some json =>
    rw [hdefault] at h
    dsimp only at h
    cases hvalue : Value.ofJson? param.type json with
    | none =>
      rw [hvalue] at h
      cases h
    | some value =>
      rw [hvalue] at h
      cases h
      rintro _ ⟨⟩
      exact Value.ofJson?_hasType hvalue

theorem loadParams_typed {function : String} {loc : Location} {params : List FunctionParam}
    {loaded : List CallParam} {s s' : State σ}
    (h : loadParams function loc params s = (.ok loaded, s')) : ∀ param ∈ loaded, param.Typed := by
  induction params generalizing loaded s with
  | nil =>
    cases h
    exact nofun
  | cons param rest ih =>
    obtain ⟨first, s₁, hfirst, h⟩ := bind_eq_ok h
    obtain ⟨others, s₂, hothers, h⟩ := bind_eq_ok h
    cases h
    exact List.forall_mem_cons.2 ⟨loadParam_typed hfirst, ih hothers⟩

theorem load_typed {loc : Location} {function : StoredFunction} {callee : Callee}
    {s s' : State σ} (h : load loc function s = (.ok callee, s')) :
    ∀ param ∈ callee.params, param.Typed := by
  unfold load at h
  cases hparse : parse function.body with
  | error e =>
    rw [hparse] at h
    cases h
  | ok body =>
    rw [hparse] at h
    obtain ⟨params, s₁, hparams, h⟩ := bind_eq_ok h
    cases h
    exact loadParams_typed hparams

/-! ## Steps that open no call -/

/-- From a state to one with as many open calls, whose memory still comes from the store. -/
structure Stays (setup : Setup σ) (s t : State σ) : Prop where
  depth : t.depth = s.depth
  functions : FromStore setup s → FromStore setup t

namespace Stays

variable {setup : Setup σ}

theorem refl (s : State σ) : Stays setup s s := ⟨rfl, id⟩

theorem trans {s t u : State σ} (h : Stays setup s t) (h' : Stays setup t u) : Stays setup s u :=
  ⟨h'.depth.trans h.depth, fun hs => h'.functions (h.functions hs)⟩

theorem of_same {s t : State σ} (hdepth : t.depth = s.depth) (hsame : t.functions = s.functions) :
    Stays setup s t := by
  refine ⟨hdepth, fun hs => ?_⟩
  unfold FromStore at hs ⊢
  rwa [hsame]

theorem pure (a : α) : Moves (Stays setup) α (Pure.pure a) := refl

theorem fail (halt : Halt) (loc : Location) : Moves (Stays setup) α (Run.fail halt loc) := refl

theorem bind {m : Run σ α} {k : α → Run σ β} (hm : Moves (Stays setup) α m)
    (hk : ∀ a, Moves (Stays setup) β (k a)) : Moves (Stays setup) β (m >>= k) :=
  Moves.bind (fun _ _ _ => trans) hm hk

theorem aside {m : Run σ α} (haside : Aside m) (hsteady : Steady m) : Moves (Stays setup) α m :=
  fun s => of_same (hsteady s).2 (haside s).2.1

theorem modify {f : State σ → State σ} (hdepth : ∀ s, (f s).depth = s.depth)
    (hsame : ∀ s, (f s).functions = s.functions) : Moves (Stays setup) Unit (Run.modify f) :=
  fun s => of_same (hdepth s) (hsame s)

theorem trace (loc : Location) (kind : TraceKind) :
    Moves (Stays setup) Unit (Run.trace setup loc kind) :=
  aside (.trace setup loc kind) ((Quiet.elementary setup).trace loc kind).steady

theorem eval (e : Expr) : Moves (Stays setup) Value (Run.eval setup e) :=
  aside (.eval setup e) ((Quiet.elementary setup).eval e Pervasive.allJudged).steady

theorem evalCondition (e : Expr) : Moves (Stays setup) Bool (Run.evalCondition setup e) :=
  aside (.evalCondition setup e)
    ((Quiet.elementary setup).evalCondition Pervasive.allJudged).steady

theorem bindArgs (callee : String) (loc : Location) (params : List CallParam)
    (args : List (Arg Expr)) :
    Moves (Stays setup) _ (Run.bindArgs setup callee loc params args) :=
  aside (.bindArgs setup callee loc params args)
    ((Quiet.elementary setup).bindArgs callee loc params Pervasive.allJudged).steady

theorem dispatch (call : CommandCall) (handler : CommandHandler σ) :
    Moves (Stays setup) Unit (Run.dispatch setup call handler) :=
  aside (.dispatch setup call handler)
    ((Quiet.elementary setup).dispatch Pervasive.allJudged handler).steady

/-- A function is learnt from what the store answers. -/
theorem fetch (name : String) (loc : Location) :
    Moves (Stays setup) (Option Callee) (Run.fetch setup name loc) := by
  intro s
  refine ⟨((Quiet.elementary setup).fetch name loc s).2, fun hs => ?_⟩
  unfold Run.fetch
  cases hknown : s.functions.get? name with
  | some known =>
    rw [bind_ok (read_at hknown)]
    exact hs
  | none =>
    rw [bind_ok (read_at hknown)]
    dsimp only
    rw [bind_ok (ask_eq _ s)]
    cases hanswer : (setup.context.function setup.options.actor name s.world).1 with
    | error e => exact hs
    | ok found =>
      dsimp only
      generalize hasked : s.withOutside _ = t
      have ht : t.functions = s.functions := by
        rw [← hasked]
        rfl
      cases hload : loadFound loc found t with
      | mk answer t' =>
        obtain rfl := (Still.loadFound loc found).eq_of hload
        cases answer with
        | error x =>
          rw [bind_error hload]
          unfold FromStore
          rw [ht]
          exact hs
        | ok callee =>
          rw [bind_ok hload]
          intro key loaded hloaded
          change (t'.functions.insert name callee).get? key = some (some loaded) at hloaded
          rw [Dict.get?_insert] at hloaded
          split at hloaded
          · next heq =>
            subst heq
            obtain rfl := Option.some.inj hloaded
            cases found with
            | none => cases hload
            | some function =>
              obtain ⟨c, t₁, hread, hdone⟩ := bind_eq_ok hload
              cases hdone
              exact ⟨s.world, function, loc, t', t', hanswer, hread⟩
          · rw [ht] at hloaded
            exact hs key loaded hloaded

theorem checkCalls (declared : List String) (calls : List Call) :
    Moves (Stays setup) Unit (Run.checkCalls setup declared calls) := by
  induction calls with
  | nil => exact pure ()
  | cons call rest ih =>
    refine bind ?_ fun known => ?_
    · unfold Run.isKnown
      split
      · exact pure _
      · refine bind (m := Run.read _) (refl ·) fun found => ?_
        split
        · exact pure _
        · exact bind (fetch _ _) fun _ => pure _
    · cases known with
      | true => exact ih
      | false => exact fail _ _

theorem validateOnce (callee : Callee) :
    Moves (Stays setup) Unit (Run.validateOnce setup callee) := by
  unfold Run.validateOnce
  cases callee.stored with
  | none => exact pure ()
  | some name =>
    refine bind (m := Run.read _) (refl ·) fun done => ?_
    cases done with
    | true => exact pure ()
    | false => exact bind (checkCalls _ _) fun _ => modify (fun _ => rfl) fun _ => rfl

/-- What the steps of the machine are made of opens no call. -/
theorem machinery (setup : Setup σ) : Machinery setup (Moves (Stays setup)) where
  pure := pure
  bind := bind
  read := fun _ s => refl s
  fail := fail
  scope := fun _ => modify (fun _ => rfl) fun _ => rfl
  iterate := modify (fun _ => rfl) fun _ => rfl
  assign := fun name value s => by
    unfold Run.assign
    cases s.env.assign? name value <;> exact of_same rfl rfl
  flow := fun loc kind _ _ => trace loc kind
  cancelled := fun loc =>
    aside (.checkCancelled setup loc) ((Quiet.elementary setup).checkCancelled loc).steady
  eval := eval
  condition := evalCondition

theorem of_checked {statement : Statement} {s s' : State σ} {answer : Except Termination Unit}
    (h : Run.checkLocated setup statement s = (answer, s')) : Stays setup s s' := by
  have hstays : Stays setup s (Run.checkLocated setup statement s).2 :=
    (machinery setup).checkLocated statement s
  rwa [h] at hstays

end Stays

/-! ## Steps that open a call -/

section

variable {setup : Setup σ}

/-- What a command calls: a macro in sight or, under a name that no handler has, a stored
function. -/
inductive Finds (setup : Setup σ) (command : CommandCall) : Callee → State σ → State σ → Prop where
  | ofMacro {m : Macro} {s : State σ} (h : s.env.findMacro? command.name = some m) :
    Finds setup command (Callee.ofMacro m) s s
  | ofStore {callee : Callee} {s s' : State σ} (hscoped : s.env.findMacro? command.name = none)
    (hhandler : setup.context.registry.command? command.name = none)
    (h : fetch setup command.name command.loc s = (.ok (some callee), s')) :
    Finds setup command callee s s'

/-- The arguments of a command in the slots of what it calls. -/
def Places (setup : Setup σ) (command : CommandCall) (callee : Callee) (slots : List Slot)
    (s : State σ) : Prop :=
  ∃ next s', placeArgs setup command.name command.loc command.args.length
    (Binding.ofParams callee.params) command.args s = (.ok ⟨slots, next⟩, s')

/-- A step in which the body of a callee begins: what the command calls, how its arguments are
placed, and the frame with the parameters and the macros of the body. -/
structure Begins (setup : Setup σ) (command : CommandCall) (callee : Callee) (slots : List Slot)
    (s s' : State σ) : Prop where
  found : ∃ s₁, Finds setup command callee s s₁ ∧ Places setup command callee slots s₁
  framed : ∃ (bound : List (String × Value)) (env : Env), Binding.bound slots = .ok bound ∧
    s'.env = (callee.body.filterMap Statement.macro?).foldl Env.define
      (bound.foldl (fun env (key, value) => env.declare key value) env.pushFrame)
  depth : s'.depth = s.depth + 1
  functions : FromStore setup s → FromStore setup s'

theorem fetch_loaded {name : String} {loc : Location} {found : Option Callee} {s s' : State σ}
    (h : fetch setup name loc s = (.ok found, s')) : s'.functions.get? name = some found :=
  (fetch_eq_ok_iff.1 h).remembered

theorem Finds.typed {command : CommandCall} {callee : Callee} {s s' : State σ}
    (h : Finds setup command callee s s') (hs : FromStore setup s) :
    ∀ param ∈ callee.params, param.Typed := by
  cases h with
  | ofMacro hscoped =>
    intro param hparam
    obtain ⟨declared, -, rfl⟩ := List.mem_map.1 hparam
    exact nofun
  | ofStore hscoped hhandler hfetch =>
    have hs' : FromStore setup s' := by
      have hstays : Stays setup s (fetch setup command.name command.loc s).2 := Stays.fetch _ _ s
      rw [hfetch] at hstays
      exact hstays.functions hs
    obtain ⟨_, _, _, _, _, -, hload⟩ := hs' _ _ (fetch_loaded hfetch)
    exact load_typed hload

/-- What a command calls is refused, or its body begins. -/
theorem openCallee_cases {command : CommandCall} {callee : Callee} {s₀ s s' : State σ}
    {answer : Except Termination (List Task)} (hfinds : Finds setup command callee s₀ s)
    (hfirst : Stays setup s₀ s) (h : openCallee setup command callee s = (answer, s')) :
    Stays setup s₀ s' ∨ answer = .ok [.each callee.body, .closeFrame] ∧
      ∃ slots, Begins setup command callee slots s₀ s' := by
  have hbind : Stays setup s
      (bindArgs setup command.name command.loc callee.params command.args s).2 :=
    Stays.bindArgs _ _ _ _ s
  unfold openCallee at h
  cases hbound : bindArgs setup command.name command.loc callee.params command.args s with
  | mk result s₁ =>
    rw [hbound] at hbind
    cases result with
    | error x =>
      rw [bind_error hbound] at h
      cases h
      exact .inl (hfirst.trans hbind)
    | ok bound =>
      rw [bind_ok hbound] at h
      have hcheck : Stays setup s₁ (validateOnce setup callee s₁).2 := Stays.validateOnce callee s₁
      cases hvalid : validateOnce setup callee s₁ with
      | mk result s₂ =>
        rw [hvalid] at hcheck
        have hstays : Stays setup s₀ s₂ := hfirst.trans (hbind.trans hcheck)
        cases result with
        | error x =>
          rw [bind_error hvalid] at h
          cases h
          exact .inl hstays
        | ok _ =>
          rw [bind_ok hvalid] at h
          change (trace setup command.loc (.macroEntered command.name (s₂.depth + 1)) >>=
            fun _ => openFrame bound callee.body) s₂ = (answer, s') at h
          rw [bind_ok (trace_eq ..)] at h
          cases h
          obtain ⟨⟨slots, next⟩, s₃, hplaced, hdone⟩ := bind_eq_ok hbound
          refine .inr ⟨rfl, slots, ⟨⟨s, hfinds, next, s₃, hplaced⟩, ?_, ?_, hstays.functions⟩⟩
          · exact ⟨bound, _, ofBinding_ok hdone, rfl⟩
          · exact congrArg (· + 1) hstays.depth

theorem openCommand_cases {command : CommandCall} {s s' : State σ}
    {answer : Except Termination (List Task)} (h : openCommand setup command s = (answer, s')) :
    Stays setup s s' ∨ ∃ callee slots, answer = .ok [.each callee.body, .closeFrame] ∧
      Begins setup command callee slots s s' := by
  have hcall : ∀ callee s₁, Finds setup command callee s s₁ → Stays setup s s₁ →
      openCall setup command callee s₁ = (answer, s') →
      Stays setup s s' ∨ ∃ callee slots, answer = .ok [.each callee.body, .closeFrame] ∧
        Begins setup command callee slots s s' := by
    intro callee s₁ hfinds hstays hopen
    change (if setup.options.maxCallDepth < s₁.depth + 1 then
        fail (.callDepth setup.options.maxCallDepth command.name) command.loc
      else openCallee setup command callee : Run σ (List Task)) s₁ = (answer, s') at hopen
    by_cases hdeep : setup.options.maxCallDepth < s₁.depth + 1
    · rw [if_pos hdeep] at hopen
      cases hopen
      exact .inl hstays
    · rw [if_neg hdeep] at hopen
      rcases openCallee_cases hfinds hstays hopen with hrefused | ⟨hanswer, slots, hbegins⟩
      · exact .inl hrefused
      · exact .inr ⟨callee, slots, hanswer, hbegins⟩
  unfold openCommand at h
  cases hscoped : s.env.findMacro? command.name with
  | some m =>
    rw [bind_ok (read_at hscoped)] at h
    exact hcall _ s (.ofMacro hscoped) (.refl s) h
  | none =>
    rw [bind_ok (read_at hscoped)] at h
    dsimp only at h
    cases hhandler : setup.context.registry.command? command.name with
    | some handler =>
      rw [hhandler] at h
      have hstays : Stays setup s
          ((dispatch setup command handler >>= fun _ => pure ([] : List Task)) s).2 :=
        Stays.bind (Stays.dispatch command handler) (fun _ => Stays.pure _) s
      change (dispatch setup command handler >>= fun _ => pure []) s = (answer, s') at h
      rw [h] at hstays
      exact .inl hstays
    | none =>
      rw [hhandler] at h
      dsimp only at h
      have hstays : Stays setup s (fetch setup command.name command.loc s).2 := Stays.fetch _ _ s
      cases hfetch : fetch setup command.name command.loc s with
      | mk result s₁ =>
        rw [hfetch] at hstays
        cases result with
        | error x =>
          rw [bind_error hfetch] at h
          cases h
          exact .inl hstays
        | ok found =>
          rw [bind_ok hfetch] at h
          cases found with
          | none =>
            cases h
            exact .inl hstays
          | some callee => exact hcall callee s₁ (.ofStore hscoped hhandler hfetch) hstays h

/-- A statement that is a command opens no call, or its callee begins. -/
theorem Task.run_command_cases {name : String} {args : List (Arg Expr)} {loc : Location}
    {rest : List Statement} {s s' : State σ} {answer : Except Termination Advance}
    (h : (Task.each (.command name args loc :: rest)).run setup s = (answer, s')) :
    Stays setup s s' ∨
      ∃ (callee : Callee) (slots : List Slot) (s₁ : State σ),
        answer = .ok ⟨[.each callee.body, .closeFrame, .each rest], 0⟩ ∧
        checkLocated setup (.command name args loc) s = (.ok (), s₁) ∧
        Begins setup ⟨name, args, loc⟩ callee slots s₁ s' := by
  change (checkLocated setup (.command name args loc) >>= fun _ =>
    openCommand setup ⟨name, args, loc⟩ >>= fun tasks =>
      pure ⟨tasks ++ [.each rest], 0⟩) s = (answer, s') at h
  cases hchecked : checkLocated setup (.command name args loc) s with
  | mk result s₁ =>
    have hlocated := Stays.of_checked hchecked
    cases result with
    | error x =>
      rw [bind_error hchecked] at h
      cases h
      exact .inl hlocated
    | ok _ =>
      rw [bind_ok hchecked] at h
      cases hopened : openCommand setup ⟨name, args, loc⟩ s₁ with
      | mk result s₂ =>
        have hcases := openCommand_cases hopened
        cases result with
        | error x =>
          rw [bind_error hopened] at h
          cases h
          rcases hcases with hstays | ⟨_, _, hanswer, -⟩
          · exact .inl (hlocated.trans hstays)
          · cases hanswer
        | ok tasks =>
          rw [bind_ok hopened] at h
          cases h
          rcases hcases with hstays | ⟨callee, slots, hanswer, hbegins⟩
          · exact .inl (hlocated.trans hstays)
          · cases hanswer
            exact .inr ⟨callee, slots, s₁, rfl, rfl, hbegins⟩

/-- What a step can do: it opens no call, it closes one, or it is a command whose callee begins. -/
theorem Task.run_cases {task : Task} {s s' : State σ} {answer : Except Termination Advance}
    (h : task.run setup s = (answer, s')) :
    Stays setup s s' ∨
      (s'.depth = s.depth - 1 ∧ (FromStore setup s → FromStore setup s')) ∨
      ∃ (command : CommandCall) (rest : List Statement) (callee : Callee) (slots : List Slot)
        (s₁ : State σ),
        task = .each (.command command.name command.args command.loc :: rest) ∧
        answer = .ok ⟨[.each callee.body, .closeFrame, .each rest], 0⟩ ∧
        checkLocated setup (.command command.name command.args command.loc) s = (.ok (), s₁) ∧
        Begins setup command callee slots s₁ s' := by
  have hmoves : Moves (Stays setup) Advance (task.run setup) → Stays setup s s' := by
    intro hstays
    have hs := hstays s
    rwa [h] at hs
  have hP := Stays.machinery setup
  cases task with
  | whole program =>
    exact .inl (hmoves (hP.bind (Stays.checkCalls _ _) fun _ => hP.bind (hP.hoist program) fun _ =>
      hP.pure _))
  | closeScope => exact .inl (hmoves (hP.bind (hP.scope Env.pop) fun _ => hP.pure _))
  | closeFrame =>
    cases h
    exact .inr (.inl ⟨rfl, id⟩)
  | count loc n body i =>
    exact .inl (hmoves (hP.turn (hP.pure _) (hP.beginIteration loc i none) (hP.openBody body) _))
  | test loc e body i =>
    exact .inl (hmoves
      (hP.turn (hP.condition e) (hP.beginIteration loc i none) (hP.openBody body) _))
  | range loc name stop step body c =>
    exact .inl (hmoves (hP.turn (hP.pure _)
      (hP.beginIteration loc c.iteration (some (name, c.value)))
      (hP.openRound name c.value body) _))
  | each statements =>
    cases statements with
    | nil => exact .inl (hmoves (Stays.pure _))
    | cons statement rest =>
      by_cases hcommand : ∃ name args loc, statement = .command name args loc
      · obtain ⟨name, args, loc, rfl⟩ := hcommand
        rcases Task.run_command_cases h with hstays | ⟨callee, slots, s₁, hok, hchecked, hbegins⟩
        · exact .inl hstays
        · exact .inr (.inr ⟨⟨name, args, loc⟩, rest, callee, slots, s₁, rfl, hok, hchecked,
            hbegins⟩)
      · have hother : ∀ name args loc, statement ≠ .command name args loc := by
          intro name args loc heq
          exact hcommand ⟨name, args, loc, heq⟩
        have hopened : Moves (Stays setup) (List Task) (openStatement setup statement) :=
          hP.openStatement statement fun name args loc heq => absurd heq (hother name args loc)
        exact .inl (hmoves (hP.bind (hP.checkLocated _) fun _ =>
          hP.bind hopened fun _ => hP.pure _))

/-! ## Whole runs -/

theorem FromStore.unwind {task : Task} {s : State σ} (h : FromStore setup s) :
    FromStore setup (task.unwind s) := by
  cases task <;> exact h

theorem FromStore.next {c d : Config σ} (hnext : c.next setup = some d)
    (h : FromStore setup c.state) : FromStore setup d.state := by
  cases hstatus : c.status with
  | error x =>
    obtain ⟨tasks, state, status, begun⟩ := c
    obtain rfl : status = .error x := hstatus
    cases tasks with
    | nil => cases hnext
    | cons task rest =>
      cases hnext
      exact h.unwind
  | ok _ =>
    have hrun : ∀ {task : Task} {answer : Except Termination Advance},
        task.run setup c.state = (answer, d.state) → FromStore setup d.state := by
      intro task answer hs
      rcases Task.run_cases hs with hstays | ⟨-, hkept⟩ | ⟨_, _, _, _, _, -, -, hchecked, hbegins⟩
      · exact hstays.functions h
      · exact hkept h
      · exact hbegins.functions ((Stays.of_checked hchecked).functions h)
    obtain ⟨task, rest, -, ⟨advance, hs, -⟩ | ⟨x, hs, -⟩⟩ := Config.next_cases hnext hstatus
    · exact hrun hs
    · exact hrun hs

theorem Config.status_of_next {c d : Config σ} (hnext : c.next setup = some d)
    (hstatus : d.status = .ok ()) : c.status = .ok () := by
  cases hc : c.status with
  | ok _ => rfl
  | error x =>
    rw [Config.error_of_next hnext hc] at hstatus
    cases hstatus

theorem FromStore.after {c d : Config σ} {steps : Nat} (hafter : c.after setup steps = some d)
    (h : FromStore setup c.state) : FromStore setup d.state := by
  induction steps generalizing c with
  | zero =>
    cases hafter
    exact h
  | succ steps ih =>
    obtain ⟨e, hnext, hrest⟩ := Option.bind_eq_some_iff.1 hafter
    exact ih hrest (h.next hnext)

theorem Begins.means {command : CommandCall} {callee : Callee} {slots : List Slot}
    {s s' : State σ} (h : Begins setup command callee slots s s') (hs : FromStore setup s) :
    slots.map Slot.param = callee.params ∧ ∀ slot ∈ slots, slot.Means slots s'.env := by
  obtain ⟨s₁, hfinds, next, s₂, hplaced⟩ := h.found
  obtain ⟨hparams, htyped⟩ := placeArgs_ok hplaced
  have hslots : ∀ slot ∈ slots, slot.Typed := htyped (Binding.ofParams_typed (hfinds.typed hs))
  obtain ⟨bound, env, hbound, henv⟩ := h.framed
  refine ⟨hparams.trans (Binding.ofParams_params _), fun slot hslot => ?_⟩
  have hmeans := means_of_bound hbound hslots env hslot
  unfold Slot.Means at hmeans ⊢
  rwa [henv, (Env.vars_defineAll _ _ _).1, (Env.vars_defineAll _ _ slot.param.name).2]

/-- Parameters have their types. Whenever a step of a run opens a call, a body begins: that of the
macro or function which the next command names, with the arguments of the command placed in slots,
one for each parameter. The name of a parameter then means a value of the declared type, which an
argument or a default has supplied, or, for an optional parameter to which nothing was supplied, what
the global scope says. Where a function repeats the name of a parameter, the type is the declared one
of a parameter with this name. -/
theorem parameters_have_types {program : Program} {journal : Journal} {world : σ} {steps : Nat}
    {c d : Config σ} (hreached : (Config.initial program journal world).after setup steps = some c)
    (hnext : c.next setup = some d) (hgoes : d.status = .ok ())
    (hcall : d.state.depth = c.state.depth + 1) :
    ∃ (command : CommandCall) (rest : List Statement) (tasks : List Task) (callee : Callee)
      (slots : List Slot) (s s₁ : State σ),
      c.tasks = .each (.command command.name command.args command.loc :: rest) :: tasks ∧
      d.tasks = .each callee.body :: .closeFrame :: .each rest :: tasks ∧
      checkLocated setup (.command command.name command.args command.loc) c.state = (.ok (), s) ∧
      Finds setup command callee s s₁ ∧ Places setup command callee slots s₁ ∧
      slots.map Slot.param = callee.params ∧
      (∀ slot ∈ slots, slot.Means slots d.state.env) ∧
      ((callee.params.map CallParam.name).Nodup →
        ∀ slot ∈ slots, slot.Means [slot] d.state.env) := by
  have hstatus : c.status = .ok () := Config.status_of_next hnext hgoes
  have hstart : FromStore setup (Config.initial program journal world).state := by
    intro name callee hloaded
    cases hloaded
  have hmemory : FromStore setup c.state := hstart.after hreached
  obtain ⟨task, others, htasks, ⟨advance, hrun, -, hthen⟩ | ⟨x, -, herror⟩⟩ :=
    Config.next_cases hnext hstatus
  · rcases Task.run_cases hrun with
      hstays | ⟨hdepth, -⟩ | ⟨command, rest, callee, slots, s, rfl, hanswer, hchecked, hbegins⟩
    · have hdepth := hstays.depth
      omega
    · omega
    · cases hanswer
      obtain ⟨s₁, hfinds, hplaces⟩ := hbegins.found
      obtain ⟨hparams, hmeans⟩ :=
        hbegins.means ((Stays.of_checked hchecked).functions hmemory)
      refine ⟨command, rest, others, callee, slots, s, s₁, htasks, hthen, hchecked, hfinds, hplaces,
        hparams, hmeans, fun hnames slot hslot => (hmeans slot hslot).own ?_ hslot⟩
      rwa [← hparams, List.map_map] at hnames
  · rw [hgoes] at herror
    cases herror

end

/-- A stored function with an optional parameter, one that has a default and one that is given by its
name. The first of them has the name of a global variable. -/
theorem parameters_have_types_of_function :
    let function : StoredFunction :=
      ⟨"fill", none, [.withDefault "x" .int none, .withDefault "y" .int (some (.int 3)),
        .required "z" .string], "", 1⟩
    let context : Context Unit :=
      { registry := ⟨Dict.empty, Dict.empty⟩
        probe :=
          { pose := fun world => (.error (.unavailable ""), world)
            blockAt := fun _ world => (.ok none, world)
            findBlock := fun _ _ _ world => (.ok none, world) }
        function := fun _ _ world => (.ok (some function), world) }
    let setup : Setup Unit := ⟨context, {}⟩
    let program : Program :=
      [.bind "x" (.bool true default) default,
        .command "fill" [⟨some "z", .text "a" default⟩] default]
    ∃ c d, (Config.initial program default ()).after setup 2 = some c ∧
      c.next setup = some d ∧ d.state.env.get? "y" = some (.int 3) ∧
      ∃ (callee : Callee) (slots : List Slot), slots.map Slot.param = callee.params ∧
        ∀ slot ∈ slots, slot.Means slots d.state.env := by
  intro function context setup program
  have hsteps : ((Config.initial program default ()).after setup 2).map
      (fun c => (c.state.depth, (c.next setup).map fun d =>
        (decide (d.status = .ok ()), d.state.depth, d.state.env.get? "y"))) =
      some (0, some (true, 1, some (.int 3))) := by
    decide +kernel
  obtain ⟨c, hc, hfirst⟩ := Option.map_eq_some_iff.1 hsteps
  obtain ⟨hdepth, hsecond⟩ := Prod.mk.inj hfirst
  obtain ⟨d, hd, hthird⟩ := Option.map_eq_some_iff.1 hsecond
  obtain ⟨hgoes, hthird⟩ := Prod.mk.inj hthird
  obtain ⟨hopened, hy⟩ := Prod.mk.inj hthird
  have hcall : d.state.depth = c.state.depth + 1 := by rw [hopened, hdepth]
  obtain ⟨_, _, _, callee, slots, _, _, -, -, -, -, -, hparams, hmeans, -⟩ :=
    parameters_have_types hc hd (of_decide_eq_true hgoes) hcall
  exact ⟨c, d, hc, hd, hy, callee, slots, hparams, hmeans⟩

/-- An optional parameter of type int that is given nothing has the name of a global variable: where
the body begins, the name means the value of that variable, which is no int. -/
theorem omitted_parameter_means_global :
    let function : StoredFunction := ⟨"fill", none, [.withDefault "x" .int none], "", 1⟩
    let context : Context Unit :=
      { registry := ⟨Dict.empty, Dict.empty⟩
        probe :=
          { pose := fun world => (.error (.unavailable ""), world)
            blockAt := fun _ world => (.ok none, world)
            findBlock := fun _ _ _ world => (.ok none, world) }
        function := fun _ _ world => (.ok (some function), world) }
    let setup : Setup Unit := ⟨context, {}⟩
    let program : Program := [.bind "x" (.bool true default) default, .command "fill" [] default]
    ((Config.initial program default ()).after setup 2).map
        (fun c => (c.state.depth, (c.next setup).map fun d =>
          (decide (d.status = .ok ()), d.state.depth, d.state.env.get? "x"))) =
      some (0, some (true, 1, some (.bool true))) ∧
    (Value.bool true).hasType .int = false := by
  intro function context setup program
  exact ⟨by decide +kernel, rfl⟩

end Run

end BlockScript
