import BlockScript.Proofs.Scope.Names

/-!
# Environments as stacks

An environment is a stack of scopes, the innermost first and the global one at the bottom. What is
seen of a stack are the variables of the scopes up to the nearest call frame, and those at the
bottom. Reading and assigning both go to the nearest binding that is seen.
-/
namespace BlockScript
set_option autoImplicit false

/-- What can be done with an environment. -/
inductive Env.Change where
  | push
  | pushFrame
  | pop
  | declare (name : String) (value : Value)
  | assign (name : String) (value : Value)
  | define (m : Macro)

/-- An assignment of a variable that is not in sight leaves everything as it is. -/
def Env.perform (env : Env) : Env.Change → Env
  | .push => env.push
  | .pushFrame => env.pushFrame
  | .pop => env.pop
  | .declare name value => env.declare name value
  | .assign name value => (env.assign? name value).getD env
  | .define m => env.define m

/-! ## Stacks -/

namespace Scope

def bound (scope : Scope) (name : String) (value : Value) : Scope :=
  { scope with bindings := scope.bindings.bound name value }

def defining (scope : Scope) (m : Macro) : Scope :=
  { scope with
    bindings := { scope.bindings with macros := scope.bindings.macros.insert m.name m } }

end Scope

namespace Stack

/-- No scope above the level opens a call, or it is the bottom. -/
def inSight (scopes : List Scope) (level : Nat) : Bool :=
  (scopes.take level).all (fun scope => !scope.opensCall) || level + 1 = scopes.length

def valueAt? (name : String) (scopes : List Scope) (level : Nat) : Option Value :=
  scopes[level]?.bind fun scope => scope.bindings.vars.get? name

/-- The level of the nearest binding in sight. -/
def place? (name : String) (scopes : List Scope) : Option Nat :=
  (List.range scopes.length).find? fun level =>
    inSight scopes level && (valueAt? name scopes level).isSome

/-- The scope at the bottom is never removed. -/
def perform (scopes : List Scope) : Env.Change → List Scope
  | .push => ⟨Bindings.empty, false⟩ :: scopes
  | .pushFrame => ⟨Bindings.empty, true⟩ :: scopes
  | .pop => if 1 < scopes.length then scopes.tail else scopes
  | .declare name value => scopes.modifyHead fun scope => scope.bound name value
  | .assign name value =>
    match place? name scopes with
    | some level => scopes.modify level fun scope => scope.bound name value
    | none => scopes
  | .define m => scopes.modifyHead fun scope => scope.defining m

theorem place?_eq_some_iff {name : String} {scopes : List Scope} {level : Nat} :
    place? name scopes = some level ↔
      (inSight scopes level = true ∧ (valueAt? name scopes level).isSome = true) ∧
        level < scopes.length ∧
        ∀ nearer < level, inSight scopes nearer = false ∨ valueAt? name scopes nearer = none := by
  unfold place?
  rw [List.find?_range_eq_some]
  simp only [Bool.and_eq_true, List.mem_range, Bool.not_and, Bool.or_eq_true, Bool.not_eq_true',
    Option.isSome_eq_false_iff, Option.isNone_iff_eq_none]

theorem place?_eq_none_iff {name : String} {scopes : List Scope} :
    place? name scopes = none ↔
      ∀ level < scopes.length,
        inSight scopes level = false ∨ valueAt? name scopes level = none := by
  unfold place?
  rw [List.find?_range_eq_none]
  simp only [Bool.not_and, Bool.or_eq_true, Bool.not_eq_true', Option.isSome_eq_false_iff,
    Option.isNone_iff_eq_none]

/-- Only above the bottom it matters which scopes open a call. -/
theorem inSight_above {scopes : List Scope} {level : Nat} (h : level + 1 < scopes.length) :
    inSight scopes level = (scopes.take level).all fun scope => !scope.opensCall := by
  unfold inSight
  rw [decide_eq_false (Nat.ne_of_lt h), Bool.or_false]

section

variable {name : String} {above : List Scope} {scope : Scope}

theorem valueAt?_append (name : String) (above : List Scope) (scope : Scope) (below : List Scope) :
    valueAt? name (above ++ scope :: below) above.length = scope.bindings.vars.get? name := by
  rw [valueAt?, List.getElem?_append_right (Nat.le_refl _), Nat.sub_self]
  rfl

/-- Scopes above that neither bind the name nor open a call do not hide a binding. -/
theorem place?_append (below : List Scope)
    (habove : ∀ other ∈ above, other.opensCall = false ∧ other.bindings.vars.contains name = false)
    (hfound : scope.bindings.vars.contains name = true) :
    place? name (above ++ scope :: below) = some above.length := by
  refine place?_eq_some_iff.2 ⟨⟨?_, ?_⟩, ?_, fun nearer hnearer => .inr ?_⟩
  · rw [inSight, List.take_left, List.all_eq_true.2 fun other hother => ?_]
    · rfl
    · rw [(habove other hother).1]
      rfl
  · rw [valueAt?_append]
    exact hfound
  · rw [List.length_append, List.length_cons]
    omega
  · have hmissing := (habove above[nearer] (List.getElem_mem hnearer)).2
    rw [valueAt?, List.getElem?_append_left hnearer, List.getElem?_eq_getElem hnearer]
    exact Option.isNone_iff_eq_none.1 (Option.isSome_eq_false_iff.1 hmissing)

theorem modify_append (above : List Scope) (scope : Scope) (below : List Scope)
    (change : Scope → Scope) :
    (above ++ scope :: below).modify above.length change = above ++ change scope :: below := by
  induction above with
  | nil => rfl
  | cons first above ih => exact congrArg (first :: ·) ih

end

end Stack

namespace Env

/-- All scopes, the innermost first. -/
def scopes (env : Env) : List Scope := env.locals ++ [⟨env.globals, false⟩]

theorem length_scopes (env : Env) : env.scopes.length = env.depth := List.length_append

variable {e f : Env} {name : String} {value : Value}

/-! ## Where a variable is found -/

/-- What a lookup passes by up to the nearest call frame does not bind the name. -/
theorem valueAt?_of_getLocal? {locals : List Scope} (h : getLocal? name locals = none)
    (bottom : Scope) {level : Nat} (hlevel : level < locals.length) :
    Stack.inSight (locals ++ [bottom]) level = false ∨
      Stack.valueAt? name (locals ++ [bottom]) level = none := by
  induction locals generalizing level with
  | nil => cases hlevel
  | cons scope outer ih =>
    rw [getLocal?] at h
    split at h
    · cases h
    · next hnone =>
      cases level with
      | zero => exact .inr hnone
      | succ level =>
        have houter : level < outer.length := Nat.lt_of_succ_lt_succ hlevel
        have hpast : Stack.inSight (scope :: outer ++ [bottom]) (level + 1) =
            (!scope.opensCall && Stack.inSight (outer ++ [bottom]) level) := by
          rw [Stack.inSight_above (by simpa using houter),
            Stack.inSight_above (by simpa using houter)]
          rfl
        split at h
        · next hopens => exact .inl (by rw [hpast, hopens]; rfl)
        · next hopens =>
          rw [hpast, Bool.eq_false_iff.2 hopens]
          exact ih h houter

theorem place?_of_get?_none (h : e.get? name = none) : Stack.place? name e.scopes = none := by
  obtain ⟨hlocals, hglobals⟩ := Option.or_eq_none_iff.1 h
  refine Stack.place?_eq_none_iff.2 fun level hlevel => ?_
  rw [length_scopes] at hlevel
  rcases Nat.lt_succ_iff_lt_or_eq.1 hlevel with hlevel | rfl
  · exact valueAt?_of_getLocal? hlocals _ hlevel
  · exact .inr ((Stack.valueAt?_append name e.locals _ []).trans hglobals)

/-- An assignment goes to the place that is read, and changes the one scope there. -/
theorem Reassigns.place (h : Reassigns name value e f) :
    ∃ level, Stack.place? name e.scopes = some level ∧
      e.get? name = Stack.valueAt? name e.scopes level ∧
      f.scopes = e.scopes.modify level fun scope => scope.bound name value := by
  cases h with
  | within inner scope outer globals hinner hfound =>
    have hstack : ∀ scope : Scope, scopes ⟨inner ++ scope :: outer, globals⟩ =
        inner ++ scope :: (outer ++ [⟨globals, false⟩]) := fun scope => List.append_assoc ..
    rw [hstack, hstack]
    refine ⟨inner.length, Stack.place?_append _ hinner hfound, ?_, ?_⟩
    · obtain ⟨old, hold⟩ := Option.isSome_iff_exists.1 hfound
      rw [Stack.valueAt?_append, get?, getLocal?_append _ hinner, getLocal?, hold]
      rfl
    · exact (Stack.modify_append inner scope _ (·.bound name value)).symm
  | global locals globals hhidden hfound =>
    have hvalue := Stack.valueAt?_append name locals ⟨globals, false⟩ []
    refine ⟨locals.length, ?_, ?_, ?_⟩
    · refine Stack.place?_eq_some_iff.2 ⟨⟨?_, ?_⟩, ?_, fun nearer hnearer => ?_⟩
      · exact Bool.or_eq_true_iff.2 (.inr (decide_eq_true (length_scopes ⟨locals, globals⟩).symm))
      · exact (congrArg Option.isSome hvalue).trans hfound
      · rw [length_scopes]
        exact Nat.lt_succ_self _
      · exact valueAt?_of_getLocal? hhidden _ hnearer
    · rw [get?, hhidden, Option.none_or]
      exact hvalue.symm
    · exact (Stack.modify_append locals ⟨globals, false⟩ [] (·.bound name value)).symm

/-! ## Reading and assigning -/

theorem assign?_isSome_iff (value : Value) :
    (e.assign? name value).isSome = true ↔ (e.get? name).isSome = true := by
  constructor
  · intro h
    obtain ⟨f, hf⟩ := Option.isSome_iff_exists.1 h
    exact Option.isSome_iff_exists.2 (reassigns_of_assign? hf).visible
  · intro h
    unfold assign?
    split
    · rfl
    · next hlocals =>
      split
      · rfl
      · next hglobals =>
        rw [get?, setLocal?_none hlocals, Option.none_or] at h
        exact absurd h hglobals

theorem get?_eq_place (e : Env) (name : String) :
    e.get? name = (Stack.place? name e.scopes).bind (Stack.valueAt? name e.scopes) := by
  cases h : e.get? name with
  | none => rw [place?_of_get?_none h]; rfl
  | some old =>
    -- The value that is read may be assigned again.
    have hassigns : (e.assign? name old).isSome = true := by
      rw [assign?_isSome_iff, h]
      rfl
    obtain ⟨f, hf⟩ := Option.isSome_iff_exists.1 hassigns
    obtain ⟨level, hplace, hvalue, -⟩ := (reassigns_of_assign? hf).place
    rw [hplace, ← h, hvalue]
    rfl

theorem Reassigns.get?_self (h : Reassigns name value e f) : f.get? name = some value := by
  cases h with
  | within inner scope outer globals hinner hfound =>
    rw [get?, getLocal?_append _ hinner, getLocal?, Bindings.bound, Dict.get?_insert_self]
    rfl
  | global locals globals hhidden hfound =>
    rw [get?, hhidden, Option.none_or]
    exact Dict.get?_insert_self _ _ _

theorem Reassigns.get?_of_ne (h : Reassigns name value e f) {other : String} (hne : other ≠ name) :
    f.get? other = e.get? other := by
  cases h with
  | within inner scope outer globals hinner hfound =>
    unfold get?
    congr 1
    induction inner with
    | nil => simp [getLocal?, Bindings.bound, Dict.get?_insert_of_ne _ _ hne]
    | cons first inner ih =>
      simp only [List.cons_append, getLocal?, ih (List.forall_mem_cons.1 hinner).2]
  | global locals globals hhidden hfound =>
    exact congrArg (getLocal? other locals).or (Dict.get?_insert_of_ne _ _ hne)

/-! ## Declarations -/

theorem get?_declare (env : Env) (name : String) (value : Value) (other : String) :
    (env.declare name value).get? other = if other = name then some value else env.get? other := by
  obtain ⟨locals, globals⟩ := env
  cases locals with
  | nil => exact Dict.get?_insert ..
  | cons scope outer =>
    change (getLocal? other (scope.bound name value :: outer)).or _ = _
    rw [getLocal?, Scope.bound, Bindings.bound]
    by_cases h : other = name
    · rw [h, Dict.get?_insert_self, if_pos rfl]
      rfl
    · rw [Dict.get?_insert_of_ne _ _ h, if_neg h]
      rfl

theorem findMacro?_declare (env : Env) (name : String) (value : Value) (other : String) :
    (env.declare name value).findMacro? other = env.findMacro? other := by
  obtain ⟨locals, globals⟩ := env
  cases locals <;> rfl

theorem pop_declare (h : 1 < e.depth) (name : String) (value : Value) :
    (e.declare name value).pop = e.pop := by
  obtain ⟨locals, globals⟩ := e
  cases locals with
  | nil => exact absurd h (Nat.lt_irrefl 1)
  | cons scope outer => rfl

/-- A name means the macro of the innermost scope that declares it, on whichever side of a call
frame. -/
theorem findMacro?_eq_some_iff (env : Env) (name : String) (m : Macro) :
    env.findMacro? name = some m ↔ ∃ above scope below, env.scopes = above ++ scope :: below ∧
      scope.bindings.macros.get? name = some m ∧
      ∀ inner ∈ above, inner.bindings.macros.get? name = none := by
  have hfound : env.findMacro? name =
      env.scopes.findSome? fun scope => scope.bindings.macros.get? name := by
    rw [scopes, List.findSome?_append, List.findSome?_singleton]
    rfl
  rw [hfound, List.findSome?_eq_some_iff]

/-! ## Runs -/

theorem scopes_perform (env : Env) (change : Change) :
    (env.perform change).scopes = Stack.perform env.scopes change := by
  cases change with
  | push => rfl
  | pushFrame => rfl
  | pop =>
    obtain ⟨locals, globals⟩ := env
    cases locals <;> simp [perform, Stack.perform, scopes, pop]
  | declare name value =>
    obtain ⟨locals, globals⟩ := env
    cases locals <;> rfl
  | assign name value =>
    cases h : env.assign? name value with
    | none =>
      have hnone : env.get? name = none := by
        rw [← Option.not_isSome_iff_eq_none, ← assign?_isSome_iff value, h]
        exact Bool.false_ne_true
      simp only [perform, h, Stack.perform, place?_of_get?_none hnone, Option.getD_none]
    | some f =>
      obtain ⟨level, hplace, -, hscopes⟩ := (reassigns_of_assign? h).place
      simp only [perform, h, Stack.perform, hplace, Option.getD_some]
      exact hscopes
  | define m =>
    obtain ⟨locals, globals⟩ := env
    cases locals <;> rfl

/-- The environment that a run of changes makes of the first one, as a stack. -/
theorem scopes_foldl_perform (changes : List Change) (env : Env) :
    (changes.foldl perform env).scopes = changes.foldl Stack.perform env.scopes :=
  (List.foldl_hom scopes fun env change => (scopes_perform env change).symm).symm

/-- Whatever is done with an environment, starting with the empty one, it stays a stack over a
bottom that is no call frame. What is read of it is the nearest binding in sight; an assignment
finds one exactly if there is something to read, and changes this binding and no other. A
declaration binds its name and no other, and is gone with its scope. A macro is found in all
scopes. -/
theorem binding_read_is_binding_assigned (changes : List Change) :
    let env := changes.foldl perform Env.empty
    let scopes := changes.foldl Stack.perform [⟨Bindings.empty, false⟩]
    (env.scopes = scopes ∧ env.depth = scopes.length ∧ 1 ≤ env.depth ∧
      ∃ above bottom, scopes = above ++ [bottom] ∧ bottom.opensCall = false) ∧
    (∀ name, env.get? name = (Stack.place? name scopes).bind (Stack.valueAt? name scopes)) ∧
    (∀ name value,
      ((env.assign? name value).isSome = true ↔ (env.get? name).isSome = true) ∧
      (env.assign? name value = none → env.perform (.assign name value) = env) ∧
      ∀ assigned, env.assign? name value = some assigned →
        env.perform (.assign name value) = assigned ∧
        (∃ level, Stack.place? name scopes = some level ∧
          assigned.scopes = scopes.modify level fun scope => scope.bound name value) ∧
        assigned.get? name = some value ∧
        ∀ other, other ≠ name → assigned.get? other = env.get? other) ∧
    (∀ name value,
      (env.declare name value).get? name = some value ∧
      (∀ other, other ≠ name → (env.declare name value).get? other = env.get? other) ∧
      (∀ other, (env.declare name value).findMacro? other = env.findMacro? other) ∧
      (1 < env.depth → (env.declare name value).pop = env.pop)) ∧
    ∀ name m, env.findMacro? name = some m ↔
      ∃ above scope below, scopes = above ++ scope :: below ∧
        scope.bindings.macros.get? name = some m ∧
        ∀ inner ∈ above, inner.bindings.macros.get? name = none := by
  intro env scopes
  have hscopes : env.scopes = scopes := scopes_foldl_perform changes Env.empty
  clear_value env scopes
  subst hscopes
  refine ⟨⟨rfl, (length_scopes env).symm, Nat.succ_pos _, env.locals, _, rfl, rfl⟩,
    get?_eq_place env, fun name value => ⟨assign?_isSome_iff value, fun h => ?_, fun f h => ?_⟩,
    fun name value => ⟨?_, fun other hne => ?_, findMacro?_declare env name value,
      fun h => pop_declare h name value⟩, findMacro?_eq_some_iff env⟩
  · rw [perform, h, Option.getD_none]
  · have hassigned := reassigns_of_assign? h
    obtain ⟨level, hplace, -, hmodified⟩ := hassigned.place
    refine ⟨by rw [perform, h, Option.getD_some], ⟨level, hplace, hmodified⟩, hassigned.get?_self,
      fun other hne => hassigned.get?_of_ne hne⟩
  · rw [get?_declare, if_pos rfl]
  · rw [get?_declare, if_neg hne]

end Env

end BlockScript
