import BlockScript.Proofs.Scope.Frames

/-!
# Names in scopes

What a scope declares is the names of its variables, whatever their values, and its macros. An
assignment keeps what is declared and gives a new value to the nearest binding in sight.
Declarations go to the innermost scope, so that nothing is left of them once the scope is closed.
-/
namespace BlockScript
set_option autoImplicit false

def Bindings.names (b : Bindings) : List String × Dict Macro := (b.vars.keys, b.macros)

/-- The scope with a value for a variable. -/
def Bindings.bound (b : Bindings) (name : String) (value : Value) : Bindings :=
  { b with vars := b.vars.insert name value }

theorem Bindings.names_bound {b : Bindings} {name : String} (value : Value)
    (h : b.vars.contains name = true) : (b.bound name value).names = b.names :=
  congrArg (·, b.macros) (Dict.keys_insert_of_contains value h)

namespace Env

/-- Which scopes open a call, innermost first. The global scope, which does not, is left out. -/
def frames (env : Env) : List Bool := env.locals.map Scope.opensCall

/-- What the scopes declare, innermost first and the global scope last. -/
def names (env : Env) : List (List String × Dict Macro) :=
  env.locals.map (·.bindings.names) ++ [env.globals.names]

/-- The same scopes with the same declarations; only values of variables may differ. -/
structure SameNames (e f : Env) : Prop where
  frames : f.frames = e.frames
  names : f.names = e.names

/-- The same scopes; the innermost one may declare something else. -/
structure Continues (e f : Env) : Prop where
  frames : f.frames = e.frames
  outer : f.names.tail = e.names.tail

variable {e f g : Env}

theorem SameNames.continues (h : SameNames e f) : Continues e f :=
  ⟨h.frames, congrArg List.tail h.names⟩

theorem SameNames.refl (e : Env) : SameNames e e := ⟨rfl, rfl⟩

theorem SameNames.trans (h : SameNames e f) (h' : SameNames f g) : SameNames e g :=
  ⟨h'.frames.trans h.frames, h'.names.trans h.names⟩

theorem Continues.trans (h : Continues e f) (h' : Continues f g) : Continues e g :=
  ⟨h'.frames.trans h.frames, h'.outer.trans h.outer⟩

/-- As many scopes as before. -/
theorem Continues.depth (h : Continues e f) : f.depth = e.depth := by
  have hlength : f.frames.length = e.frames.length := congrArg List.length h.frames
  simp only [Env.frames, List.length_map] at hlength
  exact congrArg (· + 1) hlength

/-! ## Declarations -/

theorem continues_modifyInnermost (change : Bindings → Bindings) (env : Env) :
    Continues env (env.modifyInnermost change) := by
  obtain ⟨locals, globals⟩ := env
  cases locals with
  | nil => exact ⟨rfl, rfl⟩
  | cons scope outer => exact ⟨rfl, rfl⟩

theorem continues_declare (name : String) (value : Value) (env : Env) :
    Continues env (env.declare name value) :=
  continues_modifyInnermost _ env

theorem continues_declareAll (bound : List (String × Value)) (env : Env) :
    Continues env (bound.foldl (fun env (name, value) => env.declare name value) env) := by
  induction bound generalizing env with
  | nil => exact (SameNames.refl env).continues
  | cons pair rest ih => exact (continues_declare pair.1 pair.2 env).trans (ih _)

theorem continues_defineAll (macros : List Macro) (env : Env) :
    Continues env (macros.foldl Env.define env) := by
  induction macros generalizing env with
  | nil => exact (SameNames.refl env).continues
  | cons m rest ih => exact (continues_modifyInnermost _ env).trans (ih _)

/-- Whatever is declared in a scope is gone when the scope is closed. -/
theorem Continues.pop {scope : Scope}
    (h : Continues { e with locals := scope :: e.locals } f) : SameNames e f.pop := by
  obtain ⟨locals, globals⟩ := f
  cases locals with
  | nil => cases h.frames
  | cons top outer => exact ⟨(List.cons.inj h.frames).2, h.outer⟩

/-! ## Assignments -/

/-- The nearest binding of the name that is in sight has a new value, and nothing else is new. -/
inductive Reassigns (name : String) (value : Value) : Env → Env → Prop where
  | within (inner : List Scope) (scope : Scope) (outer : List Scope) (globals : Bindings) :
    (∀ other ∈ inner, other.opensCall = false ∧ other.bindings.vars.contains name = false) →
    scope.bindings.vars.contains name = true →
    Reassigns name value ⟨inner ++ scope :: outer, globals⟩
      ⟨inner ++ { scope with bindings := scope.bindings.bound name value } :: outer, globals⟩
  | global (locals : List Scope) (globals : Bindings) :
    getLocal? name locals = none → globals.vars.contains name = true →
    Reassigns name value ⟨locals, globals⟩ ⟨locals, globals.bound name value⟩

theorem setLocal?_none {name : String} {value : Value} {scopes : List Scope}
    (h : setLocal? name value scopes = none) : getLocal? name scopes = none := by
  induction scopes with
  | nil => rfl
  | cons scope outer ih =>
    rw [setLocal?] at h
    split at h
    · cases h
    · next hmissing =>
      have hnone : scope.bindings.vars.get? name = none :=
        Option.not_isSome_iff_eq_none.1 hmissing
      rw [getLocal?, hnone]
      split at h
      · next hopens => exact if_pos hopens
      · next hopens =>
        exact (if_neg hopens).trans (ih (Option.map_eq_none_iff.1 h))

theorem setLocal?_some {name : String} {value : Value} {scopes scopes' : List Scope}
    (h : setLocal? name value scopes = some scopes') :
    ∃ inner scope outer,
      scopes = inner ++ scope :: outer ∧
      scopes' = inner ++ { scope with bindings := scope.bindings.bound name value } :: outer ∧
      (∀ other ∈ inner, other.opensCall = false ∧ other.bindings.vars.contains name = false) ∧
      scope.bindings.vars.contains name = true := by
  induction scopes generalizing scopes' with
  | nil => cases h
  | cons first rest ih =>
    rw [setLocal?] at h
    split at h
    · next hfound =>
      cases h
      exact ⟨[], first, rest, rfl, rfl, fun _ hother => absurd hother List.not_mem_nil, hfound⟩
    · next hmissing =>
      split at h
      · cases h
      · next hopens =>
        obtain ⟨rest', hrest, rfl⟩ := Option.map_eq_some_iff.1 h
        obtain ⟨inner, scope, outer, rfl, rfl, hinner, hfound⟩ := ih hrest
        refine ⟨first :: inner, scope, outer, rfl, rfl, fun other hother => ?_, hfound⟩
        rcases List.mem_cons.1 hother with rfl | hother
        · exact ⟨Bool.not_eq_true _ ▸ hopens, Bool.not_eq_true _ ▸ hmissing⟩
        · exact hinner other hother

theorem reassigns_of_assign? {name : String} {value : Value} (h : e.assign? name value = some f) :
    Reassigns name value e f := by
  obtain ⟨locals, globals⟩ := e
  unfold assign? at h
  split at h
  · next locals' hlocals =>
    cases h
    obtain ⟨inner, scope, outer, rfl, rfl, hinner, hfound⟩ := setLocal?_some hlocals
    exact .within inner scope outer globals hinner hfound
  · next hlocals =>
    split at h
    · next hfound =>
      cases h
      exact .global locals globals (setLocal?_none hlocals) hfound
    · cases h

/-- Scopes that neither bind a name nor open a call do not count in the search for it. -/
theorem getLocal?_append {name : String} {inner : List Scope} (outer : List Scope)
    (h : ∀ other ∈ inner, other.opensCall = false ∧ other.bindings.vars.contains name = false) :
    getLocal? name (inner ++ outer) = getLocal? name outer := by
  induction inner with
  | nil => rfl
  | cons first rest ih =>
    obtain ⟨⟨hopens, hmissing⟩, hrest⟩ := List.forall_mem_cons.1 h
    have hnone : first.bindings.vars.get? name = none :=
      Option.isNone_iff_eq_none.1 (Option.isSome_eq_false_iff.1 hmissing)
    rw [List.cons_append, getLocal?, hnone, hopens]
    exact ih hrest

/-- An assignment needs a variable in sight. -/
theorem Reassigns.visible {name : String} {value : Value} (h : Reassigns name value e f) :
    ∃ old, e.get? name = some old := by
  cases h with
  | within inner scope outer globals hinner hfound =>
    obtain ⟨old, hold⟩ := Option.isSome_iff_exists.1 hfound
    refine ⟨old, ?_⟩
    rw [get?, getLocal?_append _ hinner, getLocal?, hold]
    rfl
  | global locals globals hhidden hfound =>
    obtain ⟨old, hold⟩ := Option.isSome_iff_exists.1 hfound
    exact ⟨old, by rw [get?, hhidden, hold]; rfl⟩

theorem Reassigns.sameNames {name : String} {value : Value} (h : Reassigns name value e f) :
    SameNames e f := by
  cases h with
  | within inner scope outer globals hinner hfound =>
    refine ⟨?_, ?_⟩
    · simp only [Env.frames, List.map_append, List.map_cons]
    · simp only [Env.names, List.map_append, List.map_cons, Bindings.names_bound value hfound]
  | global locals globals hhidden hfound =>
    exact ⟨rfl, congrArg (locals.map (·.bindings.names) ++ [·]) (Bindings.names_bound value hfound)⟩

end Env

end BlockScript
