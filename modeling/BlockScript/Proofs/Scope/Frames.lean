import BlockScript.Scope.Env

/-!
# What a call frame hides

Scopes below a call frame keep their variables to themselves: no lookup above the frame reads them
and no assignment above it changes them. Their macros stay in sight. The frame is a scope of a stack
`scopes ++ frame :: hidden`, and all statements are about such stacks.
-/
namespace BlockScript
set_option autoImplicit false

namespace Dict

variable {α : Type}

theorem keys_insertEntry {key : String} (value : α) {entries : List (String × α)}
    (hsorted : entries.Pairwise fun a b => a.1 < b.1) (hkey : (entries.lookup key).isSome = true) :
    (insertEntry key value entries).map Prod.fst = entries.map Prod.fst := by
  induction entries with
  | nil => cases hkey
  | cons entry rest ih =>
    obtain ⟨k, v⟩ := entry
    obtain ⟨hhead, hrest⟩ := List.pairwise_cons.1 hsorted
    rw [lookup_cons_if] at hkey
    rw [insertEntry]
    split
    · next hlt =>
      -- The key would have to stand behind a greater one.
      exfalso
      have hne : key ≠ k := fun heq => String.lt_irrefl k (heq ▸ hlt)
      rw [if_neg hne] at hkey
      obtain ⟨found, hfound⟩ := Option.isSome_iff_exists.1 hkey
      obtain ⟨before, after, rfl, -⟩ := List.lookup_eq_some_iff.1 hfound
      have hgt : k < key := hhead (key, found) (by simp)
      exact String.lt_irrefl key (String.lt_trans hlt hgt)
    · split
      · next heq =>
        rw [heq]
        rfl
      · next hne =>
        rw [if_neg hne] at hkey
        rw [List.map_cons, List.map_cons, ih hrest hkey]

/-- A new value for a key that is there leaves the keys as they are. -/
theorem keys_insert_of_contains {dict : Dict α} {key : String} (value : α)
    (h : dict.contains key = true) : (dict.insert key value).keys = dict.keys :=
  keys_insertEntry value dict.sorted h

end Dict

/-- What is visible of a scope from above a call frame. -/
def Scope.outline (scope : Scope) : Dict Macro × Bool := (scope.bindings.macros, scope.opensCall)

namespace Env

/-! ## Variables -/

theorem getLocal?_hidden (name : String) (scopes : List Scope) {frame : Scope}
    (hframe : frame.opensCall = true) (hidden hidden' : List Scope) :
    getLocal? name (scopes ++ frame :: hidden) = getLocal? name (scopes ++ frame :: hidden') := by
  induction scopes with
  | nil => simp [getLocal?, hframe]
  | cons scope scopes ih => simp only [List.cons_append, getLocal?, ih]

/-- An assignment above a frame finds the same scope whatever is hidden, and changes only that. -/
theorem setLocal?_hidden (name : String) (value : Value) (scopes : List Scope) {frame : Scope}
    (hframe : frame.opensCall = true) :
    (∀ hidden, setLocal? name value (scopes ++ frame :: hidden) = none) ∨
      ∃ scopes' frame', scopes'.length = scopes.length ∧ frame'.opensCall = true ∧
        ∀ hidden, setLocal? name value (scopes ++ frame :: hidden) =
          some (scopes' ++ frame' :: hidden) := by
  induction scopes with
  | nil =>
    by_cases hfound : frame.bindings.vars.contains name = true
    · refine .inr ⟨[], { frame with
        bindings := { frame.bindings with vars := frame.bindings.vars.insert name value } },
        rfl, hframe, fun hidden => ?_⟩
      simp [setLocal?, hfound]
    · exact .inl fun hidden => by simp [setLocal?, hfound, hframe]
  | cons scope scopes ih =>
    by_cases hfound : scope.bindings.vars.contains name = true
    · let bindings := { scope.bindings with vars := scope.bindings.vars.insert name value }
      refine .inr ⟨{ scope with bindings } :: scopes, frame, rfl, hframe, fun hidden => ?_⟩
      simp [setLocal?, hfound, bindings]
    · by_cases hopens : scope.opensCall = true
      · exact .inl fun hidden => by simp [setLocal?, hfound, hopens]
      · rcases ih with hnone | ⟨scopes', frame', hlength, hframe', hsome⟩
        · exact .inl fun hidden => by simp [setLocal?, hfound, hopens, hnone hidden]
        · refine .inr ⟨scope :: scopes', frame', congrArg (· + 1) hlength, hframe', ?_⟩
          intro hidden
          simp [setLocal?, hfound, hopens, hsome hidden]

/-! ## Changes of the innermost scope -/

theorem modifyInnermost_hidden (change : Bindings → Bindings) (scopes : List Scope) {frame : Scope}
    (hframe : frame.opensCall = true) (globals : Bindings) :
    ∃ scopes' frame', scopes'.length = scopes.length ∧ frame'.opensCall = true ∧
      ∀ hidden, modifyInnermost change ⟨scopes ++ frame :: hidden, globals⟩ =
        ⟨scopes' ++ frame' :: hidden, globals⟩ := by
  cases scopes with
  | nil => exact ⟨[], { frame with bindings := change frame.bindings }, rfl, hframe, fun _ => rfl⟩
  | cons scope scopes =>
    exact ⟨{ scope with bindings := change scope.bindings } :: scopes, frame, rfl, hframe,
      fun _ => rfl⟩

/-! ## Macros -/

/-- The macro that a name means in the scopes of a stack. -/
def macroIn? (scopes : List Scope) (name : String) : Option Macro :=
  scopes.findSome? fun scope => scope.bindings.macros.get? name

theorem macroIn?_append (scopes outer : List Scope) (name : String) :
    macroIn? (scopes ++ outer) name = (macroIn? scopes name).or (macroIn? outer name) :=
  List.findSome?_append

/-- To find macros it is enough to see the outlines of the scopes. -/
theorem macroIn?_of_outline {scopes scopes' : List Scope}
    (h : scopes.map Scope.outline = scopes'.map Scope.outline) (name : String) :
    macroIn? scopes name = macroIn? scopes' name := by
  have hmacros : ∀ scopes : List Scope, macroIn? scopes name =
      (scopes.map Scope.outline).findSome? fun outline => outline.1.get? name := by
    intro scopes
    rw [List.findSome?_map]
    rfl
  rw [hmacros, hmacros, h]

theorem findMacro?_congr {e f : Env} {name : String}
    (hlocals : macroIn? e.locals name = macroIn? f.locals name) (hglobals : e.globals = f.globals) :
    e.findMacro? name = f.findMacro? name := by
  change (macroIn? e.locals name).or _ = (macroIn? f.locals name).or _
  rw [hlocals, hglobals]

/-! ## Two environments -/

/-- Two environments with so many scopes open above a call frame. They differ at most in what the
frame hides, and their global scope has the variable names and the macros of `outer`. -/
structure Sheltered (hidden hidden' : List Scope) (outer : Bindings) (n : Nat) (e f : Env) :
    Prop where
  levels : ∃ scopes frame, scopes.length = n ∧ frame.opensCall = true ∧
    e.locals = scopes ++ frame :: hidden ∧ f.locals = scopes ++ frame :: hidden'
  globals : e.globals = f.globals
  names : e.globals.vars.keys = outer.vars.keys
  macros : e.globals.macros = outer.macros

namespace Sheltered

variable {hidden hidden' : List Scope} {outer : Bindings} {n : Nat} {e f : Env}

theorem get? (h : Sheltered hidden hidden' outer n e f) (name : String) :
    e.get? name = f.get? name := by
  obtain ⟨scopes, frame, -, hframe, he, hf⟩ := h.levels
  unfold Env.get?
  rw [he, hf, h.globals, getLocal?_hidden name scopes hframe hidden hidden']

theorem findMacro? (hsame : ∀ name, macroIn? hidden name = macroIn? hidden' name)
    (h : Sheltered hidden hidden' outer n e f) (name : String) :
    e.findMacro? name = f.findMacro? name := by
  obtain ⟨scopes, frame, -, -, he, hf⟩ := h.levels
  refine findMacro?_congr ?_ h.globals
  rw [he, hf, List.append_cons _ _ hidden, List.append_cons _ _ hidden', macroIn?_append, hsame,
    ← macroIn?_append]

theorem modifyInnermost (h : Sheltered hidden hidden' outer n e f)
    (change : Bindings → Bindings) :
    Sheltered hidden hidden' outer n (e.modifyInnermost change) (f.modifyInnermost change) := by
  obtain ⟨⟨scopes, frame, rfl, hframe, he, hf⟩, hglobals, hnames, hmacros⟩ := h
  obtain ⟨elocals, eglobals⟩ := e
  obtain ⟨flocals, fglobals⟩ := f
  dsimp only at he hf hglobals hnames hmacros
  subst he hf hglobals
  obtain ⟨scopes', frame', hlength, hframe', hchange⟩ :=
    modifyInnermost_hidden change scopes hframe eglobals
  rw [hchange, hchange]
  exact ⟨⟨scopes', frame', hlength, hframe', rfl, rfl⟩, rfl, hnames, hmacros⟩

theorem declare (h : Sheltered hidden hidden' outer n e f) (name : String) (value : Value) :
    Sheltered hidden hidden' outer n (e.declare name value) (f.declare name value) :=
  h.modifyInnermost _

theorem declareAll (h : Sheltered hidden hidden' outer n e f) (bound : List (String × Value)) :
    Sheltered hidden hidden' outer n
      (bound.foldl (fun env (name, value) => env.declare name value) e)
      (bound.foldl (fun env (name, value) => env.declare name value) f) :=
  List.foldl_rel h fun pair _ _ _ h => h.declare pair.1 pair.2

theorem defineAll (h : Sheltered hidden hidden' outer n e f) (macros : List Macro) :
    Sheltered hidden hidden' outer n (macros.foldl Env.define e) (macros.foldl Env.define f) :=
  List.foldl_rel h fun _ _ _ _ h => h.modifyInnermost _

theorem assign? (h : Sheltered hidden hidden' outer n e f) (name : String) (value : Value) :
    Option.Rel (Sheltered hidden hidden' outer n) (e.assign? name value)
      (f.assign? name value) := by
  obtain ⟨⟨scopes, frame, rfl, hframe, he, hf⟩, hglobals, hnames, hmacros⟩ := h
  unfold Env.assign?
  rw [he, hf, ← hglobals]
  rcases setLocal?_hidden name value scopes hframe with
    hnone | ⟨scopes', frame', hlength, hframe', hsome⟩
  · rw [hnone, hnone]
    dsimp only
    by_cases hfound : e.globals.vars.contains name = true
    · rw [if_pos hfound, if_pos hfound]
      refine .some ⟨⟨scopes, frame, rfl, hframe, rfl, rfl⟩, rfl, ?_, hmacros⟩
      exact (Dict.keys_insert_of_contains value hfound).trans hnames
    · rw [if_neg hfound, if_neg hfound]
      exact .none
  · rw [hsome, hsome]
    exact .some ⟨⟨scopes', frame', hlength, hframe', rfl, rfl⟩, rfl, hnames, hmacros⟩

theorem opened (h : Sheltered hidden hidden' outer n e f) (scope : Scope) :
    Sheltered hidden hidden' outer (n + 1) { e with locals := scope :: e.locals }
      { f with locals := scope :: f.locals } := by
  obtain ⟨scopes, frame, hlength, hframe, he, hf⟩ := h.levels
  refine { h with levels := ⟨scope :: scopes, frame, congrArg (· + 1) hlength, hframe, ?_, ?_⟩ }
  · exact congrArg (scope :: ·) he
  · exact congrArg (scope :: ·) hf

theorem pop (h : Sheltered hidden hidden' outer (n + 1) e f) :
    Sheltered hidden hidden' outer n e.pop f.pop := by
  obtain ⟨scopes, frame, hlength, hframe, he, hf⟩ := h.levels
  obtain ⟨scope, scopes, rfl⟩ := List.exists_cons_of_length_eq_add_one hlength
  refine { h with levels := ⟨scopes, frame, Nat.succ.inj hlength, hframe, ?_, ?_⟩ }
  · exact congrArg List.tail he
  · exact congrArg List.tail hf

/-- What is left when the frame itself is closed. -/
theorem pop_frame (h : Sheltered hidden hidden' outer 0 e f) :
    e.pop.locals = hidden ∧ f.pop.locals = hidden' := by
  obtain ⟨scopes, frame, hlength, -, he, hf⟩ := h.levels
  obtain rfl := List.eq_nil_of_length_eq_zero hlength
  exact ⟨congrArg List.tail he, congrArg List.tail hf⟩

end Sheltered

end Env

end BlockScript
