import BlockScript.Proofs.Scope.Frames

/-!
# A scope more

One of two environments has a scope more than the other, somewhere below scopes that both have open,
and that scope holds one variable. Every other name means the same in both, and what is done above
the scope, as long as it assigns no variable of that name, keeps the two alike.
-/
namespace BlockScript
set_option autoImplicit false

namespace Env

/-- A scope with one variable. -/
def holding (name : String) (value : Value) : Scope :=
  ⟨⟨Dict.empty.insert name value, Dict.empty⟩, false⟩

/-- A variable that is declared in a new scope has its value there, whatever it meant outside. -/
theorem get?_push_declare (env : Env) (name : String) (value : Value) :
    (env.push.declare name value).get? name = some value := by
  change (getLocal? name (holding name value :: env.locals)).or _ = _
  have hheld : (holding name value).bindings.vars.get? name = some value :=
    Dict.get?_insert_self _ _ _
  rw [getLocal?, hheld]
  rfl

section

variable {name other : String} (value : Value)

theorem holding_get? (h : other ≠ name) :
    (holding name value).bindings.vars.get? other = none := by
  unfold holding
  rw [Dict.get?_insert_of_ne _ _ h, Dict.get?_empty]

theorem getLocal?_inserted (h : other ≠ name) (scopes outer : List Scope) :
    getLocal? other (scopes ++ holding name value :: outer) = getLocal? other (scopes ++ outer) := by
  induction scopes with
  | nil =>
    rw [List.nil_append, List.nil_append, getLocal?, holding_get? value h]
    rfl
  | cons scope scopes ih => simp only [List.cons_append, getLocal?, ih]

/-- An assignment of another name finds the same scope, or none, with and without the one more. -/
theorem setLocal?_inserted (h : other ≠ name) (given : Value) (scopes outer : List Scope) :
    (setLocal? other given (scopes ++ outer) = none ∧
      setLocal? other given (scopes ++ holding name value :: outer) = none) ∨
    ∃ scopes' outer', scopes'.length = scopes.length ∧
      setLocal? other given (scopes ++ outer) = some (scopes' ++ outer') ∧
      setLocal? other given (scopes ++ holding name value :: outer) =
        some (scopes' ++ holding name value :: outer') := by
  induction scopes with
  | nil =>
    have hpast : setLocal? other given (holding name value :: outer) =
        (setLocal? other given outer).map (holding name value :: ·) := by
      rw [setLocal?, Dict.contains, holding_get? value h]
      rfl
    rw [List.nil_append, List.nil_append, hpast]
    cases setLocal? other given outer with
    | none => exact .inl ⟨rfl, rfl⟩
    | some outer' => exact .inr ⟨[], outer', rfl, rfl, rfl⟩
  | cons scope scopes ih =>
    by_cases hfound : scope.bindings.vars.contains other = true
    · let bindings := { scope.bindings with vars := scope.bindings.vars.insert other given }
      refine .inr ⟨{ scope with bindings } :: scopes, outer, rfl, ?_, ?_⟩ <;>
        simp [setLocal?, hfound, bindings]
    · by_cases hopens : scope.opensCall = true
      · exact .inl (by simp [setLocal?, hfound, hopens])
      · rcases ih with ⟨hnone, hnone'⟩ | ⟨scopes', outer', hlength, hsome, hsome'⟩
        · exact .inl (by simp [setLocal?, hfound, hopens, hnone, hnone'])
        · refine .inr ⟨scope :: scopes', outer', congrArg (· + 1) hlength, ?_, ?_⟩
          · simp [setLocal?, hfound, hopens, hsome]
          · simp [setLocal?, hfound, hopens, hsome']

theorem macroIn?_inserted (name : String) (scopes outer : List Scope) (macroName : String) :
    macroIn? (scopes ++ outer) macroName =
      macroIn? (scopes ++ holding name value :: outer) macroName := by
  rw [macroIn?_append, macroIn?_append]
  rfl

end

/-- Two environments, the second with a scope more. It lies below one scope and so many others that
have been opened since. -/
structure Inserted (name : String) (value : Value) (n : Nat) (e f : Env) : Prop where
  levels : ∃ scopes outer, scopes.length = n + 1 ∧ e.locals = scopes ++ outer ∧
    f.locals = scopes ++ holding name value :: outer
  globals : e.globals = f.globals

namespace Inserted

variable {name : String} {value : Value} {n : Nat} {e f : Env}

theorem get? (h : Inserted name value n e f) {other : String} (hne : other ≠ name) :
    e.get? other = f.get? other := by
  obtain ⟨scopes, outer, -, he, hf⟩ := h.levels
  unfold Env.get?
  rw [he, hf, h.globals, getLocal?_inserted value hne]

theorem macroIn? (h : Inserted name value n e f) (macroName : String) :
    Env.macroIn? e.locals macroName = Env.macroIn? f.locals macroName := by
  obtain ⟨scopes, outer, -, he, hf⟩ := h.levels
  rw [he, hf]
  exact macroIn?_inserted value name scopes outer macroName

theorem modifyInnermost (h : Inserted name value n e f) (change : Bindings → Bindings) :
    Inserted name value n (e.modifyInnermost change) (f.modifyInnermost change) := by
  obtain ⟨⟨scopes, outer, hlength, he, hf⟩, hglobals⟩ := h
  obtain ⟨scope, scopes, rfl⟩ := List.exists_cons_of_length_eq_add_one hlength
  obtain ⟨elocals, eglobals⟩ := e
  obtain ⟨flocals, fglobals⟩ := f
  dsimp only at he hf hglobals
  subst he hf hglobals
  exact ⟨⟨{ scope with bindings := change scope.bindings } :: scopes, outer, hlength, rfl, rfl⟩,
    rfl⟩

theorem declare (h : Inserted name value n e f) (other : String) (given : Value) :
    Inserted name value n (e.declare other given) (f.declare other given) :=
  h.modifyInnermost _

theorem declareAll (h : Inserted name value n e f) (bound : List (String × Value)) :
    Inserted name value n (bound.foldl (fun env (name, value) => env.declare name value) e)
      (bound.foldl (fun env (name, value) => env.declare name value) f) :=
  List.foldl_rel h fun pair _ _ _ h => h.declare pair.1 pair.2

theorem defineAll (h : Inserted name value n e f) (macros : List Macro) :
    Inserted name value n (macros.foldl Env.define e) (macros.foldl Env.define f) :=
  List.foldl_rel h fun _ _ _ _ h => h.modifyInnermost _

theorem assign? (h : Inserted name value n e f) {other : String} (hne : other ≠ name)
    (given : Value) :
    Option.Rel (Inserted name value n) (e.assign? other given) (f.assign? other given) := by
  obtain ⟨⟨scopes, outer, hlength, he, hf⟩, hglobals⟩ := h
  unfold Env.assign?
  rw [he, hf, ← hglobals]
  rcases setLocal?_inserted value hne given scopes outer with
    ⟨hnone, hnone'⟩ | ⟨scopes', outer', hlength', hsome, hsome'⟩
  · rw [hnone, hnone']
    dsimp only
    split
    · exact .some ⟨⟨scopes, outer, hlength, rfl, rfl⟩, rfl⟩
    · exact .none
  · rw [hsome, hsome']
    exact .some ⟨⟨scopes', outer', hlength'.trans hlength, rfl, rfl⟩, rfl⟩

theorem opened (h : Inserted name value n e f) (scope : Scope) :
    Inserted name value (n + 1) { e with locals := scope :: e.locals }
      { f with locals := scope :: f.locals } := by
  obtain ⟨scopes, outer, hlength, he, hf⟩ := h.levels
  refine ⟨⟨scope :: scopes, outer, congrArg (· + 1) hlength, ?_, ?_⟩, h.globals⟩
  · exact congrArg (scope :: ·) he
  · exact congrArg (scope :: ·) hf

theorem pop (h : Inserted name value (n + 1) e f) : Inserted name value n e.pop f.pop := by
  obtain ⟨scopes, outer, hlength, he, hf⟩ := h.levels
  obtain ⟨scope, scopes, rfl⟩ := List.exists_cons_of_length_eq_add_one hlength
  refine ⟨⟨scopes, outer, Nat.succ.inj hlength, ?_, ?_⟩, h.globals⟩
  · exact congrArg List.tail he
  · exact congrArg List.tail hf

/-- What is left when the last common scope is closed, and then the one more. -/
theorem pop_last (h : Inserted name value 0 e f) : e.pop = f.pop.pop := by
  obtain ⟨scopes, outer, hlength, he, hf⟩ := h.levels
  obtain ⟨scope, rfl⟩ := List.length_eq_one_iff.1 hlength
  unfold Env.pop
  rw [he, hf, h.globals]
  rfl

end Inserted

/-- A scope is opened on both sides, above one that holds a variable on the second. -/
theorem inserted_push (env : Env) (name : String) (value : Value) :
    Inserted name value 0 env.push (env.push.declare name value).push :=
  ⟨⟨[⟨Bindings.empty, false⟩], env.locals, rfl, rfl, rfl⟩, rfl⟩

end Env

end BlockScript
