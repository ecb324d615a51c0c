import BlockScript.Proofs.Run.Effects

/-!
# Lookups and checks that succeed

What the lookup of a function does to the state, and what the check of a call does, told by the ways
in which they may succeed. A lookup either finds the name among those that have been met before, or
it asks the store and remembers the answer. A call passes the check by its name alone or by such a
lookup.
-/
namespace BlockScript
set_option autoImplicit false

namespace Run

variable {σ : Type}

/-! ## Lookups -/

theorem loadParams_anywhere {function : String} {loc : Location} {params : List FunctionParam}
    {made : List CallParam} {s s' : State σ}
    (h : loadParams function loc params s = (.ok made, s')) (loc' : Location) (t : State σ) :
    loadParams function loc' params t = (.ok made, t) := by
  induction params generalizing made s with
  | nil =>
    cases h
    rfl
  | cons param rest ih =>
    obtain ⟨first, s₁, hfirst, h⟩ := bind_eq_ok h
    obtain ⟨others, s₂, hothers, h⟩ := bind_eq_ok h
    cases h
    have hparam : loadParam function loc' param t = (.ok first, t) := by
      unfold loadParam at hfirst ⊢
      cases hdefault : param.default with
      | none =>
        rw [hdefault] at hfirst
        cases hfirst
        rfl
      | some json =>
        rw [hdefault] at hfirst
        dsimp only at hfirst ⊢
        cases hvalue : Value.ofJson? param.type json with
        | none =>
          rw [hvalue] at hfirst
          cases hfirst
        | some value =>
          rw [hvalue] at hfirst
          cases hfirst
          rfl
    exact (bind_ok hparam).trans ((bind_ok (ih hothers)).trans rfl)

/-- Whether a function can be read depends on the function alone. -/
theorem loadFound_anywhere {loc : Location} {found : Option StoredFunction}
    {callee : Option Callee} {s s' : State σ} (h : loadFound loc found s = (.ok callee, s'))
    (loc' : Location) (t : State σ) : loadFound loc' found t = (.ok callee, t) := by
  cases found with
  | none =>
    cases h
    rfl
  | some function =>
    obtain ⟨read, s₁, hload, h⟩ := bind_eq_ok h
    cases h
    refine (bind_ok ?_).trans rfl
    unfold load at hload ⊢
    cases hparse : parse function.body with
    | error e =>
      rw [hparse] at hload
      cases hload
    | ok body =>
      rw [hparse] at hload
      obtain ⟨params, s₂, hparams, hload⟩ := bind_eq_ok hload
      cases hload
      exact (bind_ok (loadParams_anywhere hparams loc' t)).trans rfl

variable {setup : Setup σ}

/-- The state after the store has been asked for a function and what it gave is remembered. -/
def lookedUp (setup : Setup σ) (name : String) (found : Option Callee) (s : State σ) : State σ :=
  { s with
    world := (setup.context.function setup.options.actor name s.world).2
    functions := s.functions.insert name found }

/-- What a lookup that succeeds does to the state: nothing, if the name has been met before. -/
inductive Fetched (setup : Setup σ) (name : String) (found : Option Callee) :
    State σ → State σ → Prop where
  | known {s : State σ} (h : s.functions.get? name = some found) : Fetched setup name found s s
  | asked {s : State σ} {answer : Option StoredFunction} (hnew : s.functions.get? name = none)
    (hanswer : (setup.context.function setup.options.actor name s.world).1 = .ok answer)
    (hload : ∀ loc (t : State σ), loadFound loc answer t = (.ok found, t)) :
    Fetched setup name found s (lookedUp setup name found s)

theorem fetch_eq_ok_iff {name : String} {loc : Location} {found : Option Callee}
    {s s' : State σ} :
    fetch setup name loc s = (.ok found, s') ↔ Fetched setup name found s s' := by
  constructor
  · intro h
    obtain ⟨known, s₁, hread, h⟩ := bind_eq_ok h
    obtain ⟨hknown, rfl⟩ := read_eq_ok hread
    cases known with
    | some callee =>
      cases h
      exact .known hknown
    | none =>
      obtain ⟨answer, s₂, hask, h⟩ := bind_eq_ok h
      rw [ask_eq] at hask
      obtain ⟨hanswer, rfl⟩ := Prod.mk.inj hask
      cases answer with
      | error e => cases h
      | ok function =>
        obtain ⟨callee, s₃, hload, h⟩ := bind_eq_ok h
        obtain rfl := (Still.loadFound loc function).eq_of hload
        obtain ⟨_, s₄, hmodify, h⟩ := bind_eq_ok h
        cases hmodify
        cases h
        exact .asked hknown (Except.ok.inj hanswer) (loadFound_anywhere hload)
  · intro h
    cases h with
    | known h => exact (bind_ok (read_at h)).trans rfl
    | @asked answer hnew hanswer hload =>
      refine (bind_ok (read_at hnew)).trans ?_
      have hask : ask (setup.context.function setup.options.actor name) s =
          (.ok (.ok answer), { s with
            world := (setup.context.function setup.options.actor name s.world).2 }) := by
        rw [ask_eq, hanswer]
        rfl
      exact (bind_ok hask).trans ((bind_ok (hload loc _)).trans rfl)

/-- A lookup that ends the run has asked the store, and remembers nothing of it. -/
theorem fetch_eq_error {name : String} {loc : Location} {x : Termination} {s s' : State σ}
    (h : fetch setup name loc s = (.error x, s')) :
    s.functions.get? name = none ∧
      s' = { s with world := (setup.context.function setup.options.actor name s.world).2 } := by
  unfold fetch at h
  cases hnew : s.functions.get? name with
  | some known =>
    rw [bind_ok (read_at hnew)] at h
    cases h
  | none =>
    rw [bind_ok (read_at hnew)] at h
    refine ⟨rfl, ?_⟩
    dsimp only at h
    rw [bind_ok (ask_eq _ s)] at h
    cases hanswer : (setup.context.function setup.options.actor name s.world).1 with
    | error e =>
      rw [hanswer] at h
      cases h
      rfl
    | ok answer =>
      rw [hanswer] at h
      dsimp only at h
      cases hload : loadFound loc answer (s.withOutside { s.outside with
          world := (setup.context.function setup.options.actor name s.world).2 }) with
      | mk result s₁ =>
        obtain rfl := (Still.loadFound loc answer).eq_of hload
        cases result with
        | error y =>
          rw [bind_error hload] at h
          cases h
          rfl
        | ok callee =>
          rw [bind_ok hload] at h
          cases h

namespace Fetched

variable {name other : String} {found found' : Option Callee} {s s' s'' : State σ}

theorem env_eq (h : Fetched setup name found s s') : s'.env = s.env := by
  cases h <;> rfl

/-- What has been looked up is remembered. -/
theorem remembered (h : Fetched setup name found s s') : s'.functions.get? name = some found := by
  cases h with
  | known h => exact h
  | asked => exact Dict.get?_insert_self ..

/-- What has been met before, found or not, stays as it was. -/
theorem kept (h : Fetched setup name found s s') {known : Option Callee}
    (hknown : s.functions.get? other = some known) : s'.functions.get? other = some known := by
  cases h with
  | known => exact hknown
  | asked hnew =>
    refine (Dict.get?_insert_of_ne _ _ ?_).trans hknown
    rintro rfl
    cases hnew.symm.trans hknown

/-- A second lookup of a name changes nothing. -/
theorem again (h : Fetched setup name found s s') (h' : Fetched setup name found' s' s'') :
    found' = found ∧ s'' = s' := by
  have hknown := h.remembered
  cases h' with
  | known h' => exact ⟨Option.some.inj (h'.symm.trans hknown), rfl⟩
  | asked hnew => cases hnew.symm.trans hknown

end Fetched

/-! ## Checks -/

/-- A call that passes the check without a lookup. -/
def Evident (setup : Setup σ) (declared : List String) (env : Env) (call : Call) : Prop :=
  if call.isPredicate then
    (decide (call.name = lastOkName) || setup.context.registry.hasPredicate call.name) = true
  else
    (declared.contains call.name || (env.findMacro? call.name).isSome ||
      setup.context.registry.hasCommand call.name) = true

/-- What a call that passes the check does to the state. -/
inductive Admitted (setup : Setup σ) (declared : List String) (call : Call) :
    State σ → State σ → Prop where
  | evident {s : State σ} (h : Evident setup declared s.env call) :
    Admitted setup declared call s s
  | stored {s s' : State σ} {callee : Callee} (hcommand : call.isPredicate = false)
    (h : ¬ Evident setup declared s.env call)
    (hfetched : Fetched setup call.name (some callee) s s') : Admitted setup declared call s s'

theorem isKnown_evident {declared : List String} {call : Call} {s : State σ}
    (h : Evident setup declared s.env call) : isKnown setup declared call s = (.ok true, s) := by
  unfold Evident at h
  unfold isKnown
  by_cases hpredicate : call.isPredicate = true
  · rw [if_pos hpredicate] at h ⊢
    rw [h]
    rfl
  · rw [if_neg hpredicate] at h ⊢
    rw [bind_ok (read_at rfl), if_pos h]
    rfl

theorem isKnown_stored {declared : List String} {call : Call} {s : State σ}
    (hcommand : call.isPredicate = false) (h : ¬ Evident setup declared s.env call) :
    isKnown setup declared call s =
      (do return (← fetch setup call.name call.loc).isSome : Run σ Bool) s := by
  unfold Evident at h
  unfold isKnown
  rw [hcommand, if_neg Bool.false_ne_true] at h ⊢
  rw [bind_ok (read_at rfl), if_neg h]

theorem isKnown_eq_true_iff {declared : List String} {call : Call} {s s' : State σ} :
    isKnown setup declared call s = (.ok true, s') ↔ Admitted setup declared call s s' := by
  constructor
  · intro h
    by_cases hevident : Evident setup declared s.env call
    · obtain ⟨-, rfl⟩ := Prod.mk.inj ((isKnown_evident hevident).symm.trans h)
      exact .evident hevident
    · cases hcommand : call.isPredicate with
      | true =>
        -- A predicate that no handler answers is not known.
        unfold Evident at hevident
        unfold isKnown at h
        rw [hcommand, if_pos rfl] at hevident h
        exact absurd (Except.ok.inj (Prod.mk.inj h).1) hevident
      | false =>
        rw [isKnown_stored hcommand hevident] at h
        obtain ⟨found, s₁, hfetch, h⟩ := bind_eq_ok h
        obtain ⟨hsome, rfl⟩ := Prod.mk.inj h
        obtain ⟨callee, rfl⟩ := Option.isSome_iff_exists.1 (Except.ok.inj hsome)
        exact .stored hcommand hevident (fetch_eq_ok_iff.1 hfetch)
  · intro h
    cases h with
    | evident h => exact isKnown_evident h
    | stored hcommand h hfetched =>
      rw [isKnown_stored hcommand h]
      exact (bind_ok (fetch_eq_ok_iff.2 hfetched)).trans rfl

theorem checkCalls_cons_eq_ok_iff {declared : List String} {call : Call} {rest : List Call}
    {s s' : State σ} :
    checkCalls setup declared (call :: rest) s = (.ok (), s') ↔
      ∃ s₁, Admitted setup declared call s s₁ ∧
        checkCalls setup declared rest s₁ = (.ok (), s') := by
  constructor
  · intro h
    obtain ⟨known, s₁, hknown, h⟩ := bind_eq_ok h
    cases known with
    | false => cases h
    | true => exact ⟨s₁, isKnown_eq_true_iff.1 hknown, h⟩
  · rintro ⟨s₁, hadmitted, h⟩
    exact (bind_ok (isKnown_eq_true_iff.2 hadmitted)).trans h

end Run

end BlockScript
