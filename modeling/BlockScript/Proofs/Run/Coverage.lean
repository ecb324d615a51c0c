import BlockScript.Proofs.Run.Causes
import BlockScript.Proofs.Run.Lookups
import BlockScript.Proofs.Run.Stepwise
import BlockScript.Proofs.Scope.Macros

/-!
# Checks cover what is run

The program is checked before it starts, and a stored function at its first call. Every statement
that is ever run stands in something that has been checked: whatever is left to do has passed, and
so has the body of every macro in sight. What a check has passed stays passed, because functions
that have been loaded stay loaded. The one gap are macros: a check takes any macro name that is
declared somewhere, whether or not the declaration is in sight where the name is called.
-/
namespace BlockScript
set_option autoImplicit false

/-- A termination that tells of an unknown name. -/
def Termination.LacksName (x : Termination) : Prop :=
  ∃ halt : Halt, halt.isUnknown = true ∧ x.Tells halt

namespace Run

variable {σ α β : Type}

/-! ## Passing a check -/

namespace Task

/-- The calls in what a task leaves to do. -/
def calls : Task → List Call
  | whole program => Program.calls program
  | each statements => Program.calls statements
  | closeScope => []
  | closeFrame => []
  | count _ _ body _ => Calls.ofBody body
  | test _ e body _ => Calls.ofExpr e ++ Calls.ofBody body
  | range _ _ _ _ body _ => Calls.ofBody body

/-- The macro names in what a task leaves to do. -/
def declared : Task → List String
  | whole program => Program.declared program
  | each statements => Program.declared statements
  | closeScope => []
  | closeFrame => []
  | count _ _ body _ => Declared.ofBody body
  | test _ _ body _ => Declared.ofBody body
  | range _ _ _ _ body _ => Declared.ofBody body

def isWhole : Task → Bool
  | whole _ => true
  | _ => false

end Task

/-- A function that has been found and read. -/
def Loaded (functions : Dict (Option Callee)) (name : String) (callee : Callee) : Prop :=
  functions.get? name = some (some callee)

/-- What has been loaded stays loaded. -/
def Grown (functions functions' : Dict (Option Callee)) : Prop :=
  ∀ name callee, Loaded functions name callee → Loaded functions' name callee

/-- A macro name that is declared in the program or in the body of a loaded function. -/
def Declares (program : Program) (functions : Dict (Option Callee)) (name : String) : Prop :=
  name ∈ Program.declared program ∨
    ∃ key callee, Loaded functions key callee ∧ name ∈ Program.declared callee.body

section

variable (setup : Setup σ) (program : Program) (functions : Dict (Option Callee))

/-- A call that a check lets pass. -/
def Passed (call : Call) : Prop :=
  if call.isPredicate then Judges setup call.name
  else Declares program functions call.name ∨ setup.context.registry.hasCommand call.name = true ∨
    ∃ callee, Loaded functions call.name callee

/-- Code whose calls have passed and whose macros are declared. -/
structure Covered (calls : List Call) (declared : List String) : Prop where
  calls : ∀ call ∈ calls, Passed setup program functions call
  declared : ∀ name ∈ declared, Declares program functions name

/-- A task whose code is covered. A program that is still whole has not been checked. -/
structure Task.Covered (task : Task) : Prop where
  begun : task.isWhole = false
  code : Run.Covered setup program functions task.calls task.declared

end

/-- The macros in sight, the functions that have been loaded, and those that have been checked. -/
structure CoveredState (setup : Setup σ) (program : Program) (s : State σ) : Prop where
  macros : s.env.EachMacro fun name m => Declares program s.functions name ∧
    Covered setup program s.functions (Calls.ofBody m.body) (Declared.ofBody m.body)
  loaded : ∀ name callee, Loaded s.functions name callee → ∃ world f,
    (setup.context.function setup.options.actor name world).1 = .ok (some f) ∧
      callee.stored = some f.name
  validated : ∀ name ∈ s.validated, ∃ callee, Loaded s.functions name callee ∧
    Covered setup program s.functions (Program.calls callee.body) (Program.declared callee.body)

/-- From one state to a later one, with all that is covered. -/
structure Onward (setup : Setup σ) (program : Program) (s s' : State σ) : Prop where
  covered : CoveredState setup program s'
  grown : Grown s.functions s'.functions

/-! ## What grows with the functions -/

theorem Grown.refl (functions : Dict (Option Callee)) : Grown functions functions :=
  fun _ _ h => h

theorem Grown.insert {functions : Dict (Option Callee)} {name : String}
    (h : functions.get? name = none) (callee : Option Callee) :
    Grown functions (functions.insert name callee) := by
  intro key other hother
  unfold Loaded at hother ⊢
  rw [Dict.get?_insert_of_ne _ _ ?_]
  · exact hother
  · rintro rfl
    rw [h] at hother
    cases hother

section

variable {setup : Setup σ} {program : Program} {functions functions' : Dict (Option Callee)}
  {s s' s'' : State σ} {calls more : List Call} {declared others : List String}

theorem Declares.mono (hgrown : Grown functions functions') {name : String}
    (h : Declares program functions name) : Declares program functions' name := by
  rcases h with h | ⟨key, callee, hloaded, hname⟩
  · exact .inl h
  · exact .inr ⟨key, callee, hgrown key callee hloaded, hname⟩

theorem Passed.mono (hgrown : Grown functions functions') {call : Call}
    (h : Passed setup program functions call) : Passed setup program functions' call := by
  unfold Passed at h ⊢
  by_cases hpredicate : call.isPredicate = true
  · rw [if_pos hpredicate] at h ⊢
    exact h
  · rw [if_neg hpredicate] at h ⊢
    rcases h with h | h | ⟨callee, hloaded⟩
    · exact .inl (h.mono hgrown)
    · exact .inr (.inl h)
    · exact .inr (.inr ⟨callee, hgrown _ callee hloaded⟩)

namespace Covered

theorem mono (hgrown : Grown functions functions')
    (h : Covered setup program functions calls declared) :
    Covered setup program functions' calls declared :=
  ⟨fun call hcall => (h.calls call hcall).mono hgrown,
    fun name hname => (h.declared name hname).mono hgrown⟩

theorem left (h : Covered setup program functions (calls ++ more) (declared ++ others)) :
    Covered setup program functions calls declared :=
  ⟨fun call hcall => h.calls call (List.mem_append_left _ hcall),
    fun name hname => h.declared name (List.mem_append_left _ hname)⟩

theorem right (h : Covered setup program functions (calls ++ more) (declared ++ others)) :
    Covered setup program functions more others :=
  ⟨fun call hcall => h.calls call (List.mem_append_right _ hcall),
    fun name hname => h.declared name (List.mem_append_right _ hname)⟩

/-- Covered expressions can be evaluated. -/
theorem judgesAll (h : Covered setup program functions calls declared) :
    JudgesAll setup calls := by
  intro call hcall hpredicate
  have hpassed := h.calls call hcall
  unfold Passed at hpassed
  rwa [if_pos hpredicate] at hpassed

end Covered

theorem Task.Covered.mono (hgrown : Grown functions functions') {task : Task}
    (h : task.Covered setup program functions) : task.Covered setup program functions' :=
  ⟨h.begun, h.code.mono hgrown⟩

theorem CoveredState.onward (h : CoveredState setup program s) : Onward setup program s s :=
  ⟨h, .refl _⟩

theorem Onward.trans (h : Onward setup program s s') (h' : Onward setup program s' s'') :
    Onward setup program s s'' :=
  ⟨h'.covered, fun name callee hloaded => h'.grown name callee (h.grown name callee hloaded)⟩

end

/-! ## Steps aside -/

section

variable {setup : Setup σ} {program : Program} {s s' : State σ}

theorem CoveredState.aside (h : CoveredState setup program s) {m : Run σ α} (haside : Aside m)
    {answer : Except Termination α} (hm : m s = (answer, s')) : Onward setup program s s' := by
  obtain ⟨henv, hfunctions, hvalidated⟩ := haside s
  rw [hm] at henv hfunctions hvalidated
  obtain ⟨hmacros, hloaded, hchecked⟩ := h
  refine ⟨⟨?_, ?_, ?_⟩, ?_⟩
  · rw [henv, hfunctions]
    exact hmacros
  · rw [hfunctions]
    exact hloaded
  · rw [hfunctions, hvalidated]
    exact hchecked
  · rw [hfunctions]
    exact .refl _

/-- A step aside that knows its names. -/
theorem Ends.aside (h : CoveredState setup program s) {m : Run σ α} (haside : Aside m)
    (hknowing : Knowing m) {R : Termination → State σ → Prop} :
    Ends m s (fun _ s' => Onward setup program s s' ∧ s'.functions = s.functions)
      (fun x s' => x.LacksName → R x s') := by
  constructor
  · intro a s' hs
    have hfunctions := (haside s).2.1
    rw [hs] at hfunctions
    exact ⟨h.aside haside hs, hfunctions⟩
  · rintro x s' hs ⟨halt, hunknown, htells⟩
    exact absurd htells (hknowing s x s' hs halt hunknown)

/-- A cause that is no unknown name. -/
theorem Ends.refused {halt : Halt} (h : halt.isOther = true) {loc : Location}
    {Q : α → State σ → Prop} {R : Termination → State σ → Prop} :
    Ends (Run.fail halt loc : Run σ α) s Q (fun x s' => x.LacksName → R x s') := by
  refine .fail ?_
  rintro ⟨other, hunknown, htells⟩
  exact absurd htells (Halt.distinct_of_isOther h other hunknown)

/-! ## Functions -/

/-- A function that has been read keeps its own name. -/
theorem loadFound_ok {loc : Location} {found : Option StoredFunction} {callee : Option Callee}
    (h : loadFound loc found s = (.ok callee, s')) :
    ∀ c, callee = some c → ∃ f, found = some f ∧ c.stored = some f.name := by
  cases found with
  | none =>
    cases h
    exact nofun
  | some function =>
    obtain ⟨read, s₁, hload, h⟩ := bind_eq_ok h
    cases h
    unfold load at hload
    cases hparse : parse function.body with
    | error e =>
      rw [hparse] at hload
      cases hload
    | ok body =>
      rw [hparse] at hload
      obtain ⟨params, s₂, hparams, hload⟩ := bind_eq_ok hload
      cases hload
      rintro c ⟨⟩
      exact ⟨function, rfl, rfl⟩

theorem fetched_ok (hs : CoveredState setup program s) {name : String} {found : Option Callee}
    (h : Fetched setup name found s s') : Onward setup program s s' := by
  cases h with
  | known => exact hs.onward
  | @asked answer hnew hanswer hload =>
    have hstored := loadFound_ok (hload default s)
    have hgrown : Grown s.functions (s.functions.insert name found) := .insert hnew found
    refine ⟨⟨?_, ?_, ?_⟩, hgrown⟩
    · exact hs.macros.mono fun other m hm => ⟨hm.1.mono hgrown, hm.2.mono hgrown⟩
    · intro key callee hloaded
      change (s.functions.insert name found).get? key = some (some callee) at hloaded
      rw [Dict.get?_insert] at hloaded
      split at hloaded
      · next heq =>
        obtain ⟨f, hf, hname⟩ := hstored callee (Option.some.inj hloaded)
        exact ⟨s.world, f, heq ▸ hf ▸ hanswer, hname⟩
      · exact hs.loaded key callee hloaded
    · intro key hkey
      obtain ⟨callee, hloaded, hcovered⟩ := hs.validated key hkey
      exact ⟨callee, hgrown key callee hloaded, hcovered.mono hgrown⟩

/-- A name that has been looked up is remembered with what was found. -/
theorem fetch_ok (hs : CoveredState setup program s) {name : String} {loc : Location}
    {found : Option Callee} (h : fetch setup name loc s = (.ok found, s')) :
    Onward setup program s s' ∧ s'.functions.get? name = some found :=
  ⟨fetched_ok hs (fetch_eq_ok_iff.1 h), (fetch_eq_ok_iff.1 h).remembered⟩

/-! ## Checks -/

theorem admitted_ok (hs : CoveredState setup program s) {declared : List String}
    (hdeclared : ∀ name ∈ declared, Declares program s.functions name) {call : Call}
    (h : Admitted setup declared call s s') :
    Onward setup program s s' ∧ Passed setup program s'.functions call := by
  unfold Passed
  cases h with
  | evident h =>
    refine ⟨hs.onward, ?_⟩
    unfold Evident at h
    by_cases hpredicate : call.isPredicate = true
    · rw [if_pos hpredicate] at h ⊢
      exact (Bool.or_eq_true_iff.1 h).imp_left of_decide_eq_true
    · rw [if_neg hpredicate] at h ⊢
      rw [Bool.or_eq_true, Bool.or_eq_true] at h
      rcases h with (hname | hsome) | hcommand
      · exact .inl (hdeclared _ (List.contains_iff_mem.1 hname))
      · obtain ⟨m, hm⟩ := Option.isSome_iff_exists.1 hsome
        exact .inl (hs.macros.found hm).1
      · exact .inr (.inl hcommand)
  | @stored _ callee hcommand _ hfetched =>
    rw [hcommand, if_neg Bool.false_ne_true]
    exact ⟨fetched_ok hs hfetched, .inr (.inr ⟨callee, hfetched.remembered⟩)⟩

theorem checkCalls_ok (hs : CoveredState setup program s) {declared : List String}
    (hdeclared : ∀ name ∈ declared, Declares program s.functions name) {calls : List Call}
    (h : checkCalls setup declared calls s = (.ok (), s')) :
    Onward setup program s s' ∧ ∀ call ∈ calls, Passed setup program s'.functions call := by
  induction calls generalizing s with
  | nil =>
    cases h
    exact ⟨hs.onward, fun _ hcall => absurd hcall List.not_mem_nil⟩
  | cons call rest ih =>
    obtain ⟨s₁, hadmitted, h⟩ := checkCalls_cons_eq_ok_iff.1 h
    obtain ⟨honward, hpassed⟩ := admitted_ok hs hdeclared hadmitted
    obtain ⟨honward', hrest⟩ := ih honward.covered
      (fun name hname => (hdeclared name hname).mono honward.grown) h
    refine ⟨honward.trans honward', fun other hother => ?_⟩
    rcases List.mem_cons.1 hother with rfl | hother
    · exact hpassed.mono honward'.grown
    · exact hrest other hother

/-- Code that passes a check is covered from then on. -/
theorem validate_ok (hs : CoveredState setup program s) {statements : List Statement}
    (hdeclared : ∀ name ∈ Program.declared statements, Declares program s.functions name)
    (h : validate setup statements s = (.ok (), s')) :
    Onward setup program s s' ∧ Covered setup program s'.functions (Program.calls statements)
      (Program.declared statements) := by
  obtain ⟨honward, hpassed⟩ := checkCalls_ok hs hdeclared h
  exact ⟨honward, hpassed, fun name hname => (hdeclared name hname).mono honward.grown⟩

/-- What may be called: a body that is covered, or a function that has been loaded by its name. -/
inductive Callable (setup : Setup σ) (program : Program) (functions : Dict (Option Callee))
    (callee : Callee) : Prop where
  | covered (hstored : callee.stored = none)
    (h : Covered setup program functions (Program.calls callee.body)
      (Program.declared callee.body))
  | loaded {name : String} (hstored : callee.stored = some name)
    (h : Loaded functions name callee)

theorem validateOnce_ends (hs : CoveredState setup program s) {callee : Callee}
    (hcallee : Callable setup program s.functions callee) :
    Ends (validateOnce setup callee) s
      (fun _ s' => Onward setup program s s' ∧
        Covered setup program s'.functions (Program.calls callee.body)
          (Program.declared callee.body))
      (fun x s' => ∃ name, callee.stored = some name ∧ s.validated.contains name = false ∧
        validate setup callee.body s = (.error x, s')) := by
  unfold validateOnce
  cases hcallee with
  | covered hstored h =>
    rw [hstored]
    exact .pure ⟨hs.onward, h⟩
  | @loaded name hstored h =>
    rw [hstored]
    dsimp only
    refine .read_bind ?_
    split
    · next hdone =>
      obtain ⟨other, hother, hcovered⟩ := hs.validated name (List.contains_iff_mem.1 hdone)
      have hsame := h.symm.trans hother
      cases hsame
      exact .pure ⟨hs.onward, hcovered⟩
    · next hdone =>
      have hdeclared : ∀ other ∈ Program.declared callee.body,
          Declares program s.functions other :=
        fun other hother => .inr ⟨name, callee, h, hother⟩
      have hvalidate : Ends (validate setup callee.body) s
          (fun _ s' => Onward setup program s s' ∧ Covered setup program s'.functions
            (Program.calls callee.body) (Program.declared callee.body))
          (fun x s' => ∃ other, some name = some other ∧ s.validated.contains other = false ∧
            validate setup callee.body s = (.error x, s')) :=
        ⟨fun _ _ hok => validate_ok hs hdeclared hok,
          fun _ _ herror => ⟨name, rfl, Bool.eq_false_iff.2 hdone, herror⟩⟩
      refine .bind hvalidate ?_
      rintro _ s₁ - ⟨honward, hcovered⟩
      refine .modify ⟨⟨{ honward.covered with validated := ?_ }, honward.grown⟩, hcovered⟩
      intro other hother
      rcases List.mem_cons.1 hother with rfl | hother
      · exact ⟨callee, honward.grown _ _ h, hcovered⟩
      · exact honward.covered.validated other hother

end

end Run

end BlockScript
