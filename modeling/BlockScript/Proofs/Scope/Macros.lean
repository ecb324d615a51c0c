import BlockScript.Scope.Env

/-!
# The macros of an environment

Of all that happens to scopes, only the declaration of a macro adds one. What holds of every macro
of an environment holds of the one that a lookup finds.
-/
namespace BlockScript
set_option autoImplicit false

namespace Env

/-- The macros scope by scope, innermost first. -/
def macroLevels (env : Env) : List (Dict Macro) :=
  env.locals.map (·.bindings.macros) ++ [env.globals.macros]

/-- A property of every macro, under the name that it is declared by. -/
def EachMacro (P : String → Macro → Prop) (env : Env) : Prop :=
  ∀ macros ∈ env.macroLevels, ∀ name m, macros.get? name = some m → P name m

variable {P Q : String → Macro → Prop} {env : Env}

theorem EachMacro.mono (h : env.EachMacro P) (hle : ∀ name m, P name m → Q name m) :
    env.EachMacro Q :=
  fun macros hmacros name m hm => hle name m (h macros hmacros name m hm)

theorem eachMacro_empty : empty.EachMacro P := by
  intro macros hmacros name m hm
  obtain rfl : macros = Dict.empty := List.mem_singleton.1 hmacros
  cases hm

theorem EachMacro.found (h : env.EachMacro P) {name : String} {m : Macro}
    (hm : env.findMacro? name = some m) : P name m := by
  unfold findMacro? at hm
  rcases Option.or_eq_some_iff.1 hm with hlocal | ⟨-, hglobal⟩
  · obtain ⟨scope, hscope, hfound⟩ := List.exists_of_findSome?_eq_some hlocal
    refine h scope.bindings.macros ?_ name m hfound
    exact List.mem_append_left _ (List.mem_map_of_mem hscope)
  · exact h env.globals.macros (List.mem_append_right _ List.mem_cons_self) name m hglobal

/-! ## Scopes -/

theorem EachMacro.opened (h : env.EachMacro P) (opensCall : Bool) :
    EachMacro P { env with locals := ⟨Bindings.empty, opensCall⟩ :: env.locals } := by
  intro macros hmacros name m hm
  rcases List.mem_cons.1 hmacros with rfl | hold
  · cases hm
  · exact h macros hold name m hm

theorem EachMacro.pop (h : env.EachMacro P) : env.pop.EachMacro P := by
  intro macros hmacros
  refine h macros ?_
  rcases List.mem_append.1 hmacros with hlocal | hglobal
  · rw [Env.pop, List.map_tail] at hlocal
    exact List.mem_append_left _ (List.mem_of_mem_tail hlocal)
  · exact List.mem_append_right _ hglobal

/-! ## Variables -/

theorem macroLevels_declare (env : Env) (name : String) (value : Value) :
    (env.declare name value).macroLevels = env.macroLevels := by
  obtain ⟨locals, globals⟩ := env
  cases locals <;> rfl

theorem setLocal?_macros {name : String} {value : Value} {scopes scopes' : List Scope}
    (h : setLocal? name value scopes = some scopes') :
    scopes'.map (·.bindings.macros) = scopes.map (·.bindings.macros) := by
  induction scopes generalizing scopes' with
  | nil => cases h
  | cons scope outer ih =>
    rw [setLocal?] at h
    split at h
    · cases h
      rfl
    · split at h
      · cases h
      · obtain ⟨outer', houter, rfl⟩ := Option.map_eq_some_iff.1 h
        exact congrArg (scope.bindings.macros :: ·) (ih houter)

theorem macroLevels_assign? {name : String} {value : Value} {env' : Env}
    (h : env.assign? name value = some env') : env'.macroLevels = env.macroLevels := by
  unfold assign? at h
  split at h
  · next locals hlocals =>
    cases h
    exact congrArg (· ++ [env.globals.macros]) (setLocal?_macros hlocals)
  · split at h
    · cases h
      rfl
    · cases h

theorem EachMacro.declareAll (h : env.EachMacro P) (bound : List (String × Value)) :
    (bound.foldl (fun env (name, value) => env.declare name value) env).EachMacro P := by
  induction bound generalizing env with
  | nil => exact h
  | cons pair rest ih =>
    refine ih ?_
    unfold EachMacro
    rw [macroLevels_declare]
    exact h

/-! ## Declarations -/

theorem EachMacro.define (h : env.EachMacro P) {m : Macro} (hm : P m.name m) :
    (env.define m).EachMacro P := by
  -- The innermost scope is the only one that changes.
  have hinsert : ∀ macros : Dict Macro, macros ∈ env.macroLevels →
      ∀ name other, (macros.insert m.name m).get? name = some other → P name other := by
    intro macros hmacros name other hother
    rw [Dict.get?_insert] at hother
    split at hother
    · next heq =>
      cases hother
      exact heq ▸ hm
    · exact h macros hmacros name other hother
  obtain ⟨locals, globals⟩ := env
  cases locals with
  | nil =>
    intro macros hmacros
    rw [List.mem_singleton.1 hmacros]
    exact hinsert globals.macros List.mem_cons_self
  | cons scope outer =>
    intro macros hmacros
    rcases List.mem_cons.1 hmacros with rfl | hold
    · exact hinsert scope.bindings.macros List.mem_cons_self
    · exact h macros (List.mem_cons_of_mem _ hold)

theorem EachMacro.defineAll (h : env.EachMacro P) {macros : List Macro}
    (hall : ∀ m ∈ macros, P m.name m) : (macros.foldl Env.define env).EachMacro P := by
  induction macros generalizing env with
  | nil => exact h
  | cons m rest ih =>
    refine ih (h.define (hall m List.mem_cons_self)) ?_
    intro other hother
    exact hall other (List.mem_cons_of_mem _ hother)

end Env

end BlockScript
