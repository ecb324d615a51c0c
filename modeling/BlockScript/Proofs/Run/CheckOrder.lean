import BlockScript.Proofs.Run.Lookups
import BlockScript.Proofs.Scope.Matching

/-!
# Checks of names in any order

The check of a program goes through its calls one by one and looks up in the store what it does not
know otherwise. If the answers of the store do not depend on what it has been asked before, calls
that pass the check pass it in any other order, and what is remembered in the end is the same.
-/
namespace BlockScript
set_option autoImplicit false

namespace Run

variable {σ : Type}

/-- What the store answers about a function does not depend on what else it has been asked before,
and neither does what is left of the world. -/
structure AnswersInAnyOrder (setup : Setup σ) : Prop where
  answer : ∀ name other world,
    (setup.context.function setup.options.actor name
      (setup.context.function setup.options.actor other world).2).1 =
      (setup.context.function setup.options.actor name world).1
  world : ∀ name other world,
    (setup.context.function setup.options.actor name
      (setup.context.function setup.options.actor other world).2).2 =
      (setup.context.function setup.options.actor other
        (setup.context.function setup.options.actor name world).2).2

variable {setup : Setup σ}

theorem lookedUp_comm (hstore : AnswersInAnyOrder setup) {name other : String} (hne : name ≠ other)
    (found found' : Option Callee) (s : State σ) :
    lookedUp setup other found' (lookedUp setup name found s) =
      lookedUp setup name found (lookedUp setup other found' s) := by
  simp only [lookedUp]
  rw [hstore.world, Dict.insert_comm _ hne]

/-- Two names may be looked up in any order. -/
theorem Fetched.swap (hstore : AnswersInAnyOrder setup) {name other : String}
    {found found' : Option Callee} {s s' s'' : State σ} (h : Fetched setup name found s s')
    (h' : Fetched setup other found' s' s'') :
    ∃ t, Fetched setup other found' s t ∧ Fetched setup name found t s'' := by
  by_cases hname : other = name
  · subst hname
    obtain ⟨rfl, rfl⟩ := h.again h'
    exact ⟨s'', h, .known h.remembered⟩
  · cases h with
    | known h =>
      refine ⟨s'', h', ?_⟩
      cases h' with
      | known => exact .known h
      | asked => exact .known ((Dict.get?_insert_of_ne _ _ (Ne.symm hname)).trans h)
    | @asked answer hnew hanswer hload =>
      cases h' with
      | known h' =>
        have hknown := (Dict.get?_insert_of_ne _ _ hname).symm.trans h'
        exact ⟨s, .known hknown, .asked hnew hanswer hload⟩
      | @asked answer' hnew' hanswer' hload' =>
        -- The store is asked for both, and each answer is the one that it gives first.
        let t := lookedUp setup other found' s
        have hfirst : Fetched setup other found' s t :=
          .asked ((Dict.get?_insert_of_ne _ _ hname).symm.trans hnew')
            ((hstore.answer _ _ _).symm.trans hanswer') hload'
        have hnew : t.functions.get? name = none :=
          (Dict.get?_insert_of_ne _ _ (Ne.symm hname)).trans hnew
        refine ⟨t, hfirst, ?_⟩
        rw [lookedUp_comm hstore (Ne.symm hname)]
        exact .asked hnew ((hstore.answer _ _ _).trans hanswer) hload

/-- Two calls may be checked in any order. -/
theorem Admitted.swap (hstore : AnswersInAnyOrder setup) {declared : List String}
    {call other : Call} {s s' s'' : State σ} (h : Admitted setup declared call s s')
    (h' : Admitted setup declared other s' s'') :
    ∃ t, Admitted setup declared other s t ∧ Admitted setup declared call t s'' := by
  cases h with
  | evident h =>
    refine ⟨s'', h', ?_⟩
    cases h' with
    | evident => exact .evident h
    | stored _ _ hfetched => exact .evident (hfetched.env_eq ▸ h)
  | stored hcommand h hfetched =>
    cases h' with
    | evident h' => exact ⟨s, .evident (hfetched.env_eq ▸ h'), .stored hcommand h hfetched⟩
    | stored hcommand' h' hfetched' =>
      obtain ⟨t, hother, hcall⟩ := hfetched.swap hstore hfetched'
      rw [hfetched.env_eq] at h'
      refine ⟨t, .stored hcommand' h' hother, .stored hcommand ?_ hcall⟩
      rwa [hother.env_eq]

/-- Calls that pass the check pass it in any order, and what is remembered is the same. -/
theorem checkCalls_perm (hstore : AnswersInAnyOrder setup) {declared : List String}
    {calls calls' : List Call} (hperm : calls.Perm calls') {s s' : State σ}
    (h : checkCalls setup declared calls s = (.ok (), s')) :
    checkCalls setup declared calls' s = (.ok (), s') := by
  induction hperm generalizing s with
  | nil => exact h
  | cons call _ ih =>
    obtain ⟨s₁, hcall, hrest⟩ := checkCalls_cons_eq_ok_iff.1 h
    exact checkCalls_cons_eq_ok_iff.2 ⟨s₁, hcall, ih hrest⟩
  | swap call other rest =>
    obtain ⟨s₁, hfirst, h⟩ := checkCalls_cons_eq_ok_iff.1 h
    obtain ⟨s₂, hsecond, hrest⟩ := checkCalls_cons_eq_ok_iff.1 h
    obtain ⟨t, hsecond', hfirst'⟩ := hfirst.swap hstore hsecond
    exact checkCalls_cons_eq_ok_iff.2
      ⟨t, hsecond', checkCalls_cons_eq_ok_iff.2 ⟨s₂, hfirst', hrest⟩⟩
  | trans _ _ ih ih' => exact ih' (ih h)

/-- Of the declared names a check asks which there are, and not where. -/
theorem checkCalls_declared_congr {declared declared' : List String}
    (h : ∀ name, name ∈ declared ↔ name ∈ declared') (calls : List Call) :
    checkCalls setup declared calls = checkCalls setup declared' calls := by
  have hcontains (name : String) : declared.contains name = declared'.contains name := by
    rw [Bool.eq_iff_iff, List.contains_iff_mem, List.contains_iff_mem, h]
  induction calls with
  | nil => rfl
  | cons call rest ih => simp only [checkCalls, isKnown, hcontains, ih]

end Run

end BlockScript
