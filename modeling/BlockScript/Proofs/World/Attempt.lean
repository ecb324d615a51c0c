import BlockScript.World.Attempt

/-!
# What attempts leave behind

An attempt that ends early keeps what it has done by then. So it leaves the state as it was exactly if
it only looks until it is past every step that may end it. The rules below follow the steps of an
attempt: as long as they only look, an early end is clean, and from the first change on nothing may end
the attempt.
-/
namespace BlockScript.Attempt
set_option autoImplicit false

variable {σ ε α β : Type} {step : Attempt σ ε α} {next : α → Attempt σ ε β} {state between after : σ}

theorem bind_ok {a : α} (h : step state = (.ok a, between)) :
    (step >>= next) state = next a between := by
  dsimp only [bind]
  rw [h]

theorem bind_error {interruption : Interruption ε} (h : step state = (.error interruption, after)) :
    (step >>= next) state = (.error interruption, after) := by
  dsimp only [bind]
  rw [h]

instance : LawfulMonad (Attempt σ ε) :=
  LawfulMonad.mk' (Attempt σ ε)
    (fun x => by
      funext state
      change (x >>= fun a => pure a) state = x state
      cases h : x state with
      | mk answer between =>
        cases answer with
        | ok a => exact bind_ok h
        | error interruption => exact bind_error h)
    (fun _ _ => rfl)
    (fun x f g => by
      funext state
      cases h : x state with
      | mk answer between =>
        cases answer with
        | ok a =>
          rw [bind_ok h]
          dsimp only [bind]
          rw [h]
        | error interruption => rw [bind_error h, bind_error (bind_error h)])

/-! ## Successful steps -/

@[simp]
theorem get_bind {next : σ → Attempt σ ε β} : (get >>= next) state = next state state := rfl

@[simp]
theorem change_bind {f : σ → σ} {next : Unit → Attempt σ ε β} :
    (change f >>= next) state = next () (f state) := rfl

@[simp]
theorem require_ok_bind {a : α} :
    ((require (.ok a) : Attempt σ ε α) >>= next) state = next a state := rfl

@[simp]
theorem require_error_bind {error : ε} :
    ((require (.error error) : Attempt σ ε α) >>= next) state =
      (.error (.failed error), state) := rfl

@[simp]
theorem checked_some_bind {what : Overflow} {a : α} :
    ((checked what (some a) : Attempt σ ε α) >>= next) state = next a state := rfl

theorem require_bind_eq_ok {answer : Except ε α} {b : β} :
    (require answer >>= next) state = (.ok b, after) ↔
      ∃ a, answer = .ok a ∧ next a state = (.ok b, after) := by
  cases answer with
  | ok a => simp
  | error error => simp

theorem ensure_bind_eq_ok {condition : Bool} {error : ε} {next : Unit → Attempt σ ε β} {b : β} :
    (ensure condition error >>= next) state = (.ok b, after) ↔
      condition = true ∧ next () state = (.ok b, after) := by
  cases condition with
  | true => simp [bind, ensure]
  | false => simp [bind, ensure]

theorem checked_bind_eq_ok {what : Overflow} {result : Option α} {b : β} :
    (checked what result >>= next) state = (.ok b, after) ↔
      ∃ a, result = some a ∧ next a state = (.ok b, after) := by
  cases result with
  | some a => simp
  | none => simp [bind, checked]

theorem pure_eq_ok {a b : α} :
    (pure a : Attempt σ ε α) state = (.ok b, after) ↔ a = b ∧ state = after := by
  simp [pure]

/-! ## Early ends -/

/-- An attempt that ends early does so in its first step or after it. -/
theorem bind_eq_error {interruption : Interruption ε}
    (h : (step >>= next) state = (.error interruption, after)) :
    step state = (.error interruption, after) ∨
      ∃ a between, step state = (.ok a, between) ∧
        next a between = (.error interruption, after) := by
  cases hstep : step state with
  | mk answer between =>
    cases answer with
    | ok a => exact .inr ⟨a, between, rfl, (bind_ok hstep).symm.trans h⟩
    | error other =>
      rw [bind_error hstep] at h
      cases h
      exact .inl rfl

/-! ## Stops by an overflow -/

theorem require_bind_eq_overflow {answer : Except ε α} {what : Overflow} :
    (require answer >>= next) state = (.error (.overflow what), after) ↔
      ∃ a, answer = .ok a ∧ next a state = (.error (.overflow what), after) := by
  cases answer with
  | ok a => simp
  | error error => simp

theorem ensure_bind_eq_overflow {condition : Bool} {error : ε} {next : Unit → Attempt σ ε β}
    {what : Overflow} :
    (ensure condition error >>= next) state = (.error (.overflow what), after) ↔
      condition = true ∧ next () state = (.error (.overflow what), after) := by
  cases condition with
  | true => simp [bind, ensure]
  | false => simp [bind, ensure]

theorem checked_bind_eq_overflow {what other : Overflow} {result : Option α} :
    (checked what result >>= next) state = (.error (.overflow other), after) ↔
      (result = none ∧ what = other ∧ state = after) ∨
        ∃ a, result = some a ∧ next a state = (.error (.overflow other), after) := by
  cases result with
  | some a => simp
  | none => simp [bind, checked]

/-! ## Steps that only look -/

/-- However the attempt ends, it leaves the state as it was. -/
def Looks (attempt : Attempt σ ε α) : Prop := ∀ state, (attempt state).2 = state

namespace Looks

theorem get : Looks (get : Attempt σ ε σ) := fun _ => rfl

theorem require (answer : Except ε α) : Looks (require answer : Attempt σ ε α) := fun _ => rfl

theorem ensure (condition : Bool) (error : ε) :
    Looks (ensure condition error : Attempt σ ε Unit) := fun _ => rfl

theorem checked (what : Overflow) (result : Option α) :
    Looks (checked what result : Attempt σ ε α) := fun _ => rfl

theorem pure (a : α) : Looks (Pure.pure a : Attempt σ ε α) := fun _ => rfl

theorem bind (hstep : Looks step) (hnext : ∀ a, Looks (next a)) : Looks (step >>= next) := by
  intro state
  have hkept := hstep state
  cases h : step state with
  | mk answer between =>
    rw [h] at hkept
    cases answer with
    | ok a =>
      rw [bind_ok h, hnext a between]
      exact hkept
    | error interruption =>
      rw [bind_error h]
      exact hkept

end Looks

/-! ## Steps that nothing ends early -/

/-- None of the reasons ends the attempt early. -/
def Withstands (Reason : Interruption ε → Prop) (attempt : Attempt σ ε α) : Prop :=
  ∀ state interruption, (attempt state).1 = .error interruption → ¬ Reason interruption

namespace Withstands

variable {Reason : Interruption ε → Prop}

theorem get : Withstands Reason (get : Attempt σ ε σ) := nofun

theorem change (f : σ → σ) : Withstands Reason (change f : Attempt σ ε Unit) := nofun

theorem pure (a : α) : Withstands Reason (Pure.pure a : Attempt σ ε α) := nofun

theorem ensure (condition : Bool) {error : ε} (h : ¬ Reason (.failed error)) :
    Withstands Reason (ensure condition error : Attempt σ ε Unit) := by
  intro state interruption hended
  cases condition with
  | true => cases hended
  | false =>
    cases hended
    exact h

theorem checked {what : Overflow} (result : Option α) (h : ¬ Reason (.overflow what)) :
    Withstands Reason (checked what result : Attempt σ ε α) := by
  intro state interruption hended
  cases result with
  | some a => cases hended
  | none =>
    cases hended
    exact h

theorem bind (hstep : Withstands Reason step) (hnext : ∀ a, Withstands Reason (next a)) :
    Withstands Reason (step >>= next) := by
  intro state interruption hended
  rcases bind_eq_error (Prod.ext hended rfl) with h | ⟨a, between, -, h⟩
  · exact hstep state interruption (congrArg Prod.fst h)
  · exact hnext a between interruption (congrArg Prod.fst h)

end Withstands

/-! ## Attempts that end cleanly -/

/-- Where one of the reasons ends the attempt early, it leaves the state as it was. -/
def Clean (Reason : Interruption ε → Prop) (attempt : Attempt σ ε α) : Prop :=
  ∀ state interruption after, attempt state = (.error interruption, after) → Reason interruption →
    after = state

namespace Clean

variable {Reason : Interruption ε → Prop}

theorem of_withstands {attempt : Attempt σ ε α} (h : Withstands Reason attempt) :
    Clean Reason attempt := fun state interruption _ hended hreason =>
  absurd hreason (h state interruption (congrArg Prod.fst hended))

/-- A step that only looks may end the attempt. -/
theorem look (hstep : Looks step) (hnext : ∀ a, Clean Reason (next a)) :
    Clean Reason (step >>= next) := by
  intro state interruption after hended hreason
  have hkept := hstep state
  rcases bind_eq_error hended with h | ⟨a, between, h, hrest⟩
  · rwa [h] at hkept
  · rw [h] at hkept
    exact (hnext a between interruption after hrest hreason).trans hkept

end Clean

end BlockScript.Attempt
