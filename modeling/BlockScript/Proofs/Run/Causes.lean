import BlockScript.Proofs.Run.Agreement
import BlockScript.Proofs.Run.Steps

/-!
# Terminations for want of a name

A termination is known by its kind and its words. An unknown name cannot be taken for another cause,
nor one unknown name for another one. So a termination that tells of an unknown name comes from a
check of names, from the end of the search for a command, or from a predicate that is not
registered.
-/
namespace BlockScript
set_option autoImplicit false

/-- A termination that has the kind and the words of a cause. -/
def Termination.Tells (x : Termination) (halt : Halt) : Prop :=
  x.kind = halt.kind ∧ x.message = halt.message

/-! ## Words -/

/-- Texts that differ in a character of their beginnings. -/
theorem append_ne_append {a b : String} (n : Nat) (ha : n < a.toList.length)
    (hb : n < b.toList.length) (h : a.toList[n]? ≠ b.toList[n]?) (x y : String) :
    a ++ x ≠ b ++ y := by
  intro heq
  have hchar := congrArg (fun text : String => text.toList[n]?) heq
  simp only [String.toList_append] at hchar
  rw [List.getElem?_append_left ha, List.getElem?_append_left hb] at hchar
  exact h hchar

theorem quoted_inj {before name other after : String}
    (h : before ++ name ++ after = before ++ other ++ after) : name = other :=
  (String.append_right_inj before).1 ((String.append_left_inj after).1 h)

namespace Halt

def isUnknown : Halt → Bool
  | unknownCommand _ => true
  | unknownPredicate _ => true
  | _ => false

theorem cases_of_isUnknown {halt : Halt} (h : halt.isUnknown = true) :
    ∃ name, halt = unknownCommand name ∨ halt = unknownPredicate name := by
  cases halt with
  | unknownCommand name => exact ⟨name, .inl rfl⟩
  | unknownPredicate name => exact ⟨name, .inr rfl⟩
  | _ => cases h

/-- A cause that cannot be taken for an unknown name. -/
def Distinct (halt : Halt) : Prop :=
  ∀ other : Halt, other.isUnknown = true → ¬ (halt.kind = other.kind ∧ halt.message = other.message)

theorem Distinct.of_kind {halt : Halt} (h : halt.kind ≠ .scope) : halt.Distinct := by
  rintro other hother ⟨hkind, -⟩
  obtain ⟨name, rfl | rfl⟩ := cases_of_isUnknown hother
  · exact h hkind
  · exact h hkind

theorem distinct_undeclared (name : String) : (undeclared name).Distinct := by
  rintro other hother ⟨-, hmessage⟩
  obtain ⟨wanted, rfl | rfl⟩ := cases_of_isUnknown hother
  · change "undeclared variable '" ++ name ++ "'" = "unknown command '" ++ wanted ++ "'" at hmessage
    rw [String.append_assoc, String.append_assoc] at hmessage
    exact append_ne_append 2 (by decide) (by decide) (by decide) _ _ hmessage
  · change "undeclared variable '" ++ name ++ "'" = "unknown predicate '" ++ wanted ++ "'"
      at hmessage
    rw [String.append_assoc, String.append_assoc] at hmessage
    exact append_ne_append 2 (by decide) (by decide) (by decide) _ _ hmessage

theorem distinct_assignUndeclared (name : String) : (assignUndeclared name).Distinct := by
  rintro other hother ⟨-, hmessage⟩
  obtain ⟨wanted, rfl | rfl⟩ := cases_of_isUnknown hother
  · change "assignment to undeclared variable '" ++ name ++ "'" =
      "unknown command '" ++ wanted ++ "'" at hmessage
    rw [String.append_assoc, String.append_assoc] at hmessage
    exact append_ne_append 0 (by decide) (by decide) (by decide) _ _ hmessage
  · change "assignment to undeclared variable '" ++ name ++ "'" =
      "unknown predicate '" ++ wanted ++ "'" at hmessage
    rw [String.append_assoc, String.append_assoc] at hmessage
    exact append_ne_append 0 (by decide) (by decide) (by decide) _ _ hmessage

/-- A cause other than an unknown name; no command fails for want of a name. -/
def isOther : Halt → Bool
  | unknownCommand _ => false
  | unknownPredicate _ => false
  | commandFailed kind _ _ => kind ≠ .scope
  | _ => true

theorem distinct_of_isOther {halt : Halt} (h : halt.isOther = true) : halt.Distinct := by
  cases halt with
  | unknownCommand name => cases h
  | unknownPredicate name => cases h
  | undeclared name => exact distinct_undeclared name
  | assignUndeclared name => exact distinct_assignUndeclared name
  | commandFailed kind op message => exact .of_kind (of_decide_eq_true h)
  | unresolved error => cases error <;> exact .of_kind nofun
  | probe error => cases error <;> exact .of_kind nofun
  | predicateFault name fault => cases fault <;> exact .of_kind nofun
  | _ => exact .of_kind nofun

theorem isOther_of_isRegular {options : RunOptions} {halt : Halt}
    (h : halt.isRegular options = true) : halt.isOther = true := by
  cases halt with
  | unknownCommand name => cases h
  | unknownPredicate name => cases h
  | commandFailed kind op message =>
    rcases of_decide_eq_true h with rfl | ⟨-, rfl | rfl⟩ <;> rfl
  | _ => rfl

theorem eq_of_message {halt other : Halt} (h : halt.isUnknown = true)
    (hother : other.isUnknown = true) (hmessage : halt.message = other.message) : halt = other := by
  have hdiffer : ∀ name wanted : String,
      "unknown command '" ++ name ++ "'" ≠ "unknown predicate '" ++ wanted ++ "'" := by
    intro name wanted
    rw [String.append_assoc, String.append_assoc]
    exact append_ne_append 8 (by decide) (by decide) (by decide) _ _
  obtain ⟨name, rfl | rfl⟩ := cases_of_isUnknown h <;>
    obtain ⟨wanted, rfl | rfl⟩ := cases_of_isUnknown hother
  · exact congrArg unknownCommand (quoted_inj hmessage)
  · exact absurd hmessage (hdiffer name wanted)
  · exact absurd hmessage.symm (hdiffer wanted name)
  · exact congrArg unknownPredicate (quoted_inj hmessage)

end Halt

namespace Run

variable {σ α β : Type}

/-! ## Steps that know their names -/

/-- A step that ends no run for want of a name. -/
def Knowing (m : Run σ α) : Prop :=
  ∀ s x s', m s = (.error x, s') → ∀ halt : Halt, halt.isUnknown = true → ¬ x.Tells halt

namespace Knowing

theorem pure (a : α) : Knowing (Pure.pure a : Run σ α) := by
  intro s x s' h
  cases h

theorem bind {m : Run σ α} {k : α → Run σ β} (hm : Knowing m) (hk : ∀ a, Knowing (k a)) :
    Knowing (m >>= k) := by
  intro s x s' h
  cases hs : m s with
  | mk answer s₁ =>
    cases answer with
    | error y =>
      rw [bind_error hs] at h
      cases h
      exact hm s x s' hs
    | ok a =>
      rw [bind_ok hs] at h
      exact hk a s₁ x s' h

theorem modify (f : State σ → State σ) : Knowing (Run.modify f) := by
  intro s x s' h
  cases h

theorem failWith {halt : Halt} (h : halt.isOther = true) (loc : Location) (notes : List String) :
    Knowing (Run.failWith halt loc notes : Run σ α) := by
  intro s x s' hs other hother htells
  cases hs
  exact Halt.distinct_of_isOther h other hother htells

theorem failBody (function : StoredFunction) (loc : Location) (error : SyntaxError) :
    Knowing (Run.failBody function loc error : Run σ α) := by
  rintro s x s' ⟨⟩ halt hunknown ⟨hkind, -⟩
  obtain ⟨name, rfl | rfl⟩ := Halt.cases_of_isUnknown hunknown
  · cases hkind
  · cases hkind

end Knowing

/-! ## Names of predicates -/

/-- A predicate that can be evaluated. -/
def Judges (setup : Setup σ) (name : String) : Prop :=
  name = lastOkName ∨ setup.context.registry.hasPredicate name = true

/-- The predicates among calls can be evaluated. -/
def JudgesAll (setup : Setup σ) (calls : List Call) : Prop :=
  ∀ call ∈ calls, call.isPredicate = true → Judges setup call.name

theorem judgesAll_append {setup : Setup σ} {first second : List Call} :
    JudgesAll setup (first ++ second) ↔ JudgesAll setup first ∧ JudgesAll setup second :=
  allJudged_append

theorem judgesAll_cons {setup : Setup σ} {call : Call} {rest : List Call} :
    JudgesAll setup (call :: rest) ↔
      (call.isPredicate = true → Judges setup call.name) ∧ JudgesAll setup rest :=
  allJudged_cons

/-- Evaluation, commands and checks know their names, as long as the predicates can be evaluated. -/
theorem Knowing.elementary (setup : Setup σ) :
    Elementary setup (Judges setup) fun _ m => Knowing m where
  pure := pure
  bind := bind
  read := fun _ _ _ _ h => by cases h
  askBind := fun _ _ hk s x s' h => hk s.world _ x s' h
  trace := fun loc kind s x s' h => by
    rw [trace_eq] at h
    cases h
  change := fun f _ => modify f
  failWith := fun loc notes h => failWith (Halt.isOther_of_isRegular h) loc notes
  failBody := fun loc _ _ _ => failBody _ loc _
  predicate := fun _ hjudged => hjudged.imp_right .inl

end Run

end BlockScript
