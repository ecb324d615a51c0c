import Mathlib.Logic.Relation
import BlockScript.Proofs.Script.Grammar
import BlockScript.Script.Calls

/-!
# Declarations that move

A declaration of a macro may stand anywhere in its list of statements. To move one means to take it
out of a list and to put it back at another place; the list may be the program itself or stand
between braces at any depth. A move changes neither which calls and declarations a program holds nor
which names a list declares, but for their order.
-/
namespace BlockScript
set_option autoImplicit false

open Grammar (macroNames)

/-! ## Lists between braces -/

/-- A statement without what stands between one pair of its braces. -/
inductive Braces where
  | define (name : String) (params : List Param) (place loc : Location)
  | whenTrue (test : Expr) (place : Location) (no : Option (Body Statement)) (loc : Location)
  | whenFalse (test : Expr) (yes : Body Statement) (place loc : Location)
  | repeatCount (count : Expr) (place loc : Location)
  | repeatRange (name : String) (start stop : Expr) (step : Option Expr) (place loc : Location)
  | loop (test : Expr) (place loc : Location)
  | block (place : Location)

def Braces.around (body : List Statement) : Braces → Statement
  | define name params place loc => .define name params ⟨body, place⟩ loc
  | whenTrue test place no loc => .cond test ⟨body, place⟩ no loc
  | whenFalse test yes place loc => .cond test yes (some ⟨body, place⟩) loc
  | repeatCount count place loc => .repeatCount count ⟨body, place⟩ loc
  | repeatRange name start stop step place loc =>
    .repeatRange name start stop step ⟨body, place⟩ loc
  | loop test place loc => .loop test ⟨body, place⟩ loc
  | block place => .block ⟨body, place⟩

/-! ## Names that are unique in every list -/

namespace Lists

mutual

def ofStatement : Statement → List (List Statement)
  | .define _ _ body _ => ofBody body
  | .cond _ yes no _ => ofBody yes ++ ofAlternative no
  | .repeatCount _ body _ => ofBody body
  | .repeatRange _ _ _ _ body _ => ofBody body
  | .loop _ body _ => ofBody body
  | .assert .. => []
  | .bind .. => []
  | .assign .. => []
  | .command .. => []
  | .block body => ofBody body
  | .empty => []

def ofBody : Body Statement → List (List Statement)
  | ⟨statements, _⟩ => statements :: ofStatements statements

def ofAlternative : Option (Body Statement) → List (List Statement)
  | none => []
  | some body => ofBody body

def ofStatements : List Statement → List (List Statement)
  | [] => []
  | statement :: rest => ofStatement statement ++ ofStatements rest

end

end Lists

/-- Every list of statements in a program: the program and what stands between braces in it. -/
def Program.lists (program : Program) : List (List Statement) :=
  program :: Lists.ofStatements program

/-- No list of statements declares two macros of one name. -/
def Program.Distinct (program : Program) : Prop :=
  ∀ list ∈ Program.lists program, (macroNames list).Nodup

instance (program : Program) : Decidable (Program.Distinct program) :=
  inferInstanceAs (Decidable (∀ list ∈ Program.lists program, (macroNames list).Nodup))

/-! ## Moves -/

/-- One declaration of a macro is taken out of its list and put back somewhere else in it. -/
inductive Moved : List Statement → List Statement → Prop where
  | here {name : String} {params : List Param} {body : Body Statement} {loc : Location}
    (before after before' after' : List Statement) (h : before ++ after = before' ++ after') :
    Moved (before ++ .define name params body loc :: after)
      (before' ++ .define name params body loc :: after')
  | inside (braces : Braces) (before after : List Statement) {body body' : List Statement}
    (h : Moved body body') :
    Moved (before ++ braces.around body :: after) (before ++ braces.around body' :: after)

/-- Any number of declarations move, one after the other. -/
abbrev Program.Rearranged : Program → Program → Prop := Relation.ReflTransGen Moved

/-! ## What a move leaves as it is -/

variable {p q : List Statement}

/-- Elsewhere in the list, and in another order, the same statements stand before and after. -/
theorem perm_of_append_eq {before after before' after' : List Statement}
    (h : before ++ after = before' ++ after') (s : Statement) :
    (before ++ s :: after).Perm (before' ++ s :: after') :=
  List.perm_middle.trans (h ▸ List.perm_middle.symm)

/-- Whatever is collected of a program, statement by statement and in and around braces. -/
theorem Moved.flatMap_perm {α : Type} {f : Statement → List α}
    (hf : ∀ braces : Braces, ∃ before after, ∀ body,
      f (braces.around body) = before ++ body.flatMap f ++ after) (h : Moved p q) :
    (p.flatMap f).Perm (q.flatMap f) := by
  induction h with
  | here _ _ _ _ h => exact (perm_of_append_eq h _).flatMap_right f
  | inside braces before after _ ih =>
    obtain ⟨left, right, heq⟩ := hf braces
    simp only [List.flatMap_append, List.flatMap_cons, heq]
    exact ((ih.append_left left).append_right right).append_right _ |>.append_left _

theorem Calls.ofStatements_eq_flatMap (statements : List Statement) :
    ofStatements statements = statements.flatMap ofStatement := by
  induction statements with
  | nil => rfl
  | cons statement rest ih => rw [ofStatements, List.flatMap_cons, ih]

theorem Declared.ofStatements_eq_flatMap (statements : List Statement) :
    ofStatements statements = statements.flatMap ofStatement := by
  induction statements with
  | nil => rfl
  | cons statement rest ih => rw [ofStatements, List.flatMap_cons, ih]

theorem Lists.ofStatements_eq_flatMap (statements : List Statement) :
    ofStatements statements = statements.flatMap ofStatement := by
  induction statements with
  | nil => rfl
  | cons statement rest ih => rw [ofStatements, List.flatMap_cons, ih]

/-- The same calls, in another order. -/
theorem Moved.calls_perm (h : Moved p q) : (Program.calls p).Perm (Program.calls q) := by
  unfold Program.calls
  rw [Calls.ofStatements_eq_flatMap, Calls.ofStatements_eq_flatMap]
  refine h.flatMap_perm fun braces => ?_
  simp only [← Calls.ofStatements_eq_flatMap]
  cases braces with
  | define => exact ⟨[], [], fun body => (List.append_nil _).symm⟩
  | whenTrue test place no loc =>
    exact ⟨Calls.ofExpr test, Calls.ofAlternative no, fun body => rfl⟩
  | whenFalse test yes place loc =>
    exact ⟨Calls.ofExpr test ++ Calls.ofBody yes, [], fun body => (List.append_nil _).symm⟩
  | repeatCount count place loc =>
    exact ⟨Calls.ofExpr count, [], fun body => (List.append_nil _).symm⟩
  | repeatRange name start stop step place loc =>
    exact ⟨Calls.ofExpr start ++ Calls.ofExpr stop ++ (step.map Calls.ofExpr).getD [], [],
      fun body => (List.append_nil _).symm⟩
  | loop test place loc => exact ⟨Calls.ofExpr test, [], fun body => (List.append_nil _).symm⟩
  | block => exact ⟨[], [], fun body => (List.append_nil _).symm⟩

/-- The same declarations, in another order. -/
theorem Moved.declared_perm (h : Moved p q) :
    (Program.declared p).Perm (Program.declared q) := by
  unfold Program.declared
  rw [Declared.ofStatements_eq_flatMap, Declared.ofStatements_eq_flatMap]
  refine h.flatMap_perm fun braces => ?_
  simp only [← Declared.ofStatements_eq_flatMap]
  cases braces with
  | define name params place loc => exact ⟨[name], [], fun body => (List.append_nil _).symm⟩
  | whenTrue test place no loc => exact ⟨[], Declared.ofAlternative no, fun body => rfl⟩
  | whenFalse test yes place loc =>
    exact ⟨Declared.ofBody yes, [], fun body => (List.append_nil _).symm⟩
  | _ => exact ⟨[], [], fun body => (List.append_nil _).symm⟩

/-- What stands between braces is one of the lists, and so are the lists inside. -/
theorem Braces.lists (braces : Braces) : ∃ before after, ∀ body,
    Lists.ofStatement (braces.around body) = before ++ Program.lists body ++ after := by
  cases braces with
  | whenTrue test place no loc => exact ⟨[], Lists.ofAlternative no, fun body => rfl⟩
  | whenFalse test yes place loc =>
    exact ⟨Lists.ofBody yes, [], fun body => (List.append_nil _).symm⟩
  | _ => exact ⟨[], [], fun body => (List.append_nil _).symm⟩

/-- The name that a statement declares does not depend on what stands between its braces. -/
theorem Braces.macroNames_around (braces : Braces) (before after body body' : List Statement) :
    macroNames (before ++ braces.around body :: after) =
      macroNames (before ++ braces.around body' :: after) := by
  unfold macroNames
  rw [List.filterMap_append, List.filterMap_append, List.map_append, List.map_append]
  cases braces <;> rfl

theorem Program.Distinct.names {program : Program} (h : Program.Distinct program) :
    (macroNames program).Nodup :=
  h program List.mem_cons_self

/-- Names are unique in what stands between braces as well. -/
theorem Program.Distinct.body {braces : Braces} {before after body : List Statement}
    (h : Program.Distinct (before ++ braces.around body :: after)) : Program.Distinct body := by
  obtain ⟨left, right, hlists⟩ := braces.lists
  intro list hlist
  refine h list (List.mem_cons_of_mem _ ?_)
  rw [Lists.ofStatements_eq_flatMap, List.flatMap_append, List.flatMap_cons, hlists]
  simp [hlist]

/-- Each list after a move declares the names of a list before it. -/
theorem Moved.macroNames_perm (h : Moved p q) : ∀ list ∈ Program.lists q,
    ∃ other ∈ Program.lists p, (macroNames other).Perm (macroNames list) := by
  induction h with
  | @here name params body loc _ _ _ _ h =>
    have hperm := perm_of_append_eq h (.define name params body loc)
    intro list hlist
    rcases List.mem_cons.1 hlist with rfl | hinner
    · exact ⟨_, List.mem_cons_self, (hperm.filterMap _).map _⟩
    · refine ⟨list, List.mem_cons_of_mem _ ?_, .refl _⟩
      rw [Lists.ofStatements_eq_flatMap] at hinner ⊢
      exact (hperm.flatMap_right _).mem_iff.2 hinner
  | @inside braces before after body body' _ ih =>
    obtain ⟨left, right, hlists⟩ := braces.lists
    intro list hlist
    rcases List.mem_cons.1 hlist with rfl | hinner
    · exact ⟨_, List.mem_cons_self, .of_eq (braces.macroNames_around before after body body')⟩
    · have hsplit (statements : List Statement) :
          Lists.ofStatements (before ++ braces.around statements :: after) =
            Lists.ofStatements before ++ (left ++ Program.lists statements ++ right ++
              Lists.ofStatements after) := by
        simp only [Lists.ofStatements_eq_flatMap, List.flatMap_append, List.flatMap_cons, hlists]
      unfold Program.lists
      rw [hsplit] at hinner ⊢
      simp only [List.mem_cons, List.mem_append] at hinner ⊢
      rcases hinner with hbefore | ((hleft | hbody) | hright) | hafter
      · exact ⟨list, by simp [hbefore], .refl _⟩
      · exact ⟨list, by simp [hleft], .refl _⟩
      · obtain ⟨other, hother, hperm⟩ := ih list hbody
        exact ⟨other, by simp [hother], hperm⟩
      · exact ⟨list, by simp [hright], .refl _⟩
      · exact ⟨list, by simp [hafter], .refl _⟩

theorem Moved.distinct (h : Moved p q) (hdistinct : Program.Distinct p) : Program.Distinct q := by
  intro list hlist
  obtain ⟨other, hother, hperm⟩ := h.macroNames_perm list hlist
  exact hperm.nodup_iff.1 (hdistinct other hother)

end BlockScript
