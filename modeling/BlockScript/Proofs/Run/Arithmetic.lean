import BlockScript.Proofs.Run.Effects

/-!
# Integer arithmetic

Ints, variables that hold ints, minus signs and the four operations make expressions with an exact
value among the integers. Such an expression is evaluated to that value if it and every value on the
way to it have 64 bits and nothing is divided by zero. If not, the first operation that has no such
result ends the run, whatever the operations behind it would make of a larger number.
-/
namespace BlockScript
set_option autoImplicit false

/-- An integer of 64 bits. -/
def InInt64 (n : Int) : Prop := Int64.minValue.toInt ≤ n ∧ n ≤ Int64.maxValue.toInt

instance (n : Int) : Decidable (InInt64 n) := inferInstanceAs (Decidable (_ ∧ _))

theorem inInt64_toInt (n : Int64) : InInt64 n.toInt := ⟨n.minValue_le_toInt, n.toInt_le⟩

theorem fit64_eq_none {n : Int} (h : ¬InInt64 n) : fit64 n = none := if_neg h

theorem fit64_eq_some {n : Int} (h : InInt64 n) : ∃ m : Int64, fit64 n = some m ∧ m.toInt = n :=
  ⟨Int64.ofInt n, if_pos h, fit64_eq_some_iff.1 (if_pos h)⟩

namespace BinaryOp

/-- The four operations on ints. -/
def isArithmetic : BinaryOp → Bool
  | add => true
  | sub => true
  | mul => true
  | div => true
  | _ => false

/-- The result among the integers; a quotient is cut toward zero. -/
def exact : BinaryOp → Int → Int → Int
  | add, a, b => a + b
  | sub, a, b => a - b
  | mul, a, b => a * b
  | div, a, b => a.tdiv b
  | _, _, _ => 0

end BinaryOp

namespace Expr

/-- Made of ints and of variables that hold ints by minus signs and the four operations. -/
inductive IsArithmetic (env : Env) : Expr → Prop
  | int (n : Int64) (loc : Location) : IsArithmetic env (.int n loc)
  | ident {name : String} {n : Int64} (loc : Location) (h : env.get? name = some (.int n)) :
      IsArithmetic env (.ident name loc)
  | neg {operand : Expr} (loc : Location) (h : IsArithmetic env operand) :
      IsArithmetic env (.unary .neg operand loc)
  | binary {op : BinaryOp} {left right : Expr} (hop : op.isArithmetic = true)
      (hleft : IsArithmetic env left) (hright : IsArithmetic env right) :
      IsArithmetic env (.binary op left right)

/-- The value among the integers. -/
def exact (env : Env) : Expr → Int
  | int n _ => n.toInt
  | ident name _ =>
    match env.get? name with
    | some (.int n) => n.toInt
    | _ => 0
  | unary _ operand _ => -operand.exact env
  | binary op left right => op.exact (left.exact env) (right.exact env)
  | _ => 0

/-- The expression with all operands within it, in the order in which they are computed: operands
before their operation, and the left one first. -/
def parts : Expr → List Expr
  | unary op operand loc => operand.parts ++ [unary op operand loc]
  | binary op left right => left.parts ++ right.parts ++ [binary op left right]
  | e => [e]

/-- The value has 64 bits, and it is no quotient by zero. -/
def Computes (env : Env) (e : Expr) : Prop :=
  InInt64 (e.exact env) ∧ ∀ left right, e = binary .div left right → right.exact env ≠ 0

/-- Why the operation itself has no result, given that its operands have theirs. -/
def refusal? (env : Env) : Expr → Option Halt
  | unary .neg operand _ =>
    if InInt64 (-operand.exact env) then none else some .negationOverflow
  | binary op left right =>
    if op = .div ∧ right.exact env = 0 then some (.operator .divisionByZero)
    else if InInt64 (op.exact (left.exact env) (right.exact env)) then none
    else some (.operator (.overflow op))
  | _ => none

/-- The first part that has no result, by its cause and its place. -/
def firstRefusal? (env : Env) (e : Expr) : Option (Halt × Location) :=
  e.parts.findSome? fun part => (part.refusal? env).map fun halt => (halt, part.loc)

variable {env : Env}

theorem refusal?_eq_none_iff {e : Expr} (h : e.IsArithmetic env) :
    e.refusal? env = none ↔ e.Computes env := by
  cases h with
  | int n loc => exact iff_of_true rfl ⟨inInt64_toInt n, nofun⟩
  | @ident name n loc hname =>
    refine iff_of_true rfl ⟨?_, nofun⟩
    rw [exact, hname]
    exact inInt64_toInt n
  | @neg operand loc h =>
    have hquotient : ∀ left right, unary .neg operand loc ≠ binary .div left right := nofun
    simp only [refusal?, Computes, exact, ite_eq_left_iff, reduceCtorEq, imp_false, Decidable.not_not,
      hquotient, false_implies, implies_true, and_true]
  | @binary op left right hop hleft hright =>
    have hquotient : (∀ l r, binary op left right = binary .div l r → r.exact env ≠ 0) ↔
        ¬(op = .div ∧ right.exact env = 0) := by
      constructor
      · rintro h ⟨rfl, hzero⟩
        exact h left right rfl hzero
      · rintro h l r heq hzero
        cases heq
        exact h ⟨rfl, hzero⟩
    rw [Computes, hquotient, refusal?, exact]
    split
    · next hzero => exact iff_of_false nofun fun h => h.2 hzero
    · next hzero =>
      simp only [ite_eq_left_iff, reduceCtorEq, imp_false, Decidable.not_not, hzero,
        not_false_eq_true, and_true]

theorem isArithmetic_of_mem_parts {e part : Expr} (h : e.IsArithmetic env) (hpart : part ∈ e.parts) :
    part.IsArithmetic env := by
  induction h with
  | int n loc =>
    rw [List.mem_singleton.1 hpart]
    exact .int n loc
  | ident loc hname =>
    rw [List.mem_singleton.1 hpart]
    exact .ident loc hname
  | neg loc h ih =>
    rcases List.mem_append.1 hpart with hpart | hpart
    · exact ih hpart
    · rw [List.mem_singleton.1 hpart]
      exact .neg loc h
  | binary hop hleft hright ihl ihr =>
    rcases List.mem_append.1 hpart with hpart | hpart
    · rcases List.mem_append.1 hpart with hpart | hpart
      · exact ihl hpart
      · exact ihr hpart
    · rw [List.mem_singleton.1 hpart]
      exact .binary hop hleft hright

/-- Every refusal is an error of the run. -/
theorem kind_of_refusal {e : Expr} {halt : Halt} (h : e.refusal? env = some halt) :
    halt.kind = .runtime := by
  unfold refusal? at h
  split at h
  · split at h
    · cases h
    · rw [← Option.some.inj h]
      rfl
  · split at h
    · rw [← Option.some.inj h]
      rfl
    · split at h
      · cases h
      · rw [← Option.some.inj h]
        rfl
  · cases h

theorem firstRefusal?_neg (operand : Expr) (loc : Location) :
    (unary .neg operand loc).firstRefusal? env =
      (operand.firstRefusal? env).or
        (((unary .neg operand loc).refusal? env).map fun halt => (halt, loc)) := by
  rw [firstRefusal?, parts, List.findSome?_append, List.findSome?_singleton]
  rfl

theorem firstRefusal?_binary (op : BinaryOp) (left right : Expr) :
    (binary op left right).firstRefusal? env =
      ((left.firstRefusal? env).or (right.firstRefusal? env)).or
        (((binary op left right).refusal? env).map fun halt => (halt, left.loc)) := by
  rw [firstRefusal?, parts, List.findSome?_append, List.findSome?_append,
    List.findSome?_singleton]
  rfl

theorem firstRefusal?_eq_none_iff {e : Expr} (h : e.IsArithmetic env) :
    e.firstRefusal? env = none ↔ ∀ part ∈ e.parts, part.Computes env := by
  rw [firstRefusal?, List.findSome?_eq_none_iff]
  refine forall₂_congr fun part hpart => ?_
  rw [Option.map_eq_none_iff]
  exact refusal?_eq_none_iff (isArithmetic_of_mem_parts h hpart)

end Expr

/-! ## Evaluation -/

theorem Value.apply_arithmetic {op : BinaryOp} (hop : op.isArithmetic = true) (a b : Int64) :
    Value.apply op (.int a) (.int b) =
      if op = .div ∧ b.toInt = 0 then .error .divisionByZero
      else exactly op (op.exact a.toInt b.toInt) := by
  cases op with
  | add => rfl
  | sub => rfl
  | mul => rfl
  | div =>
    have hzero : b = 0 ↔ b.toInt = 0 := Int64.toInt_inj.symm
    simp only [apply, div, hzero, true_and]
    rfl
  | _ => cases hop

namespace Run

variable {σ : Type}

/-- An evaluation that leaves the state as it is gives an exact value, unless something refused it. -/
def Answers (exact : Int) (state : State σ) :
    Option (Halt × Location) → Except Termination Value × State σ → Prop
  | none, result => ∃ n : Int64, result = (.ok (.int n), state) ∧ n.toInt = exact
  | some (halt, loc), result => result = (.error (terminate halt loc [] state), state)

theorem negate_answers (loc : Location) (operand : Expr) {n : Int64} {state : State σ}
    (hn : n.toInt = operand.exact state.env) :
    Answers ((Expr.unary .neg operand loc).exact state.env) state
      (((Expr.unary .neg operand loc).refusal? state.env).map fun halt => (halt, loc))
      (negate loc (.int n) state) := by
  rw [Expr.refusal?, Expr.exact, ← hn, negate]
  by_cases h : InInt64 (-n.toInt)
  · obtain ⟨m, hm, hexact⟩ := fit64_eq_some h
    rw [if_pos h, hm]
    exact ⟨m, rfl, hexact⟩
  · rw [if_neg h, fit64_eq_none h]
    rfl

theorem applyStrict_answers {op : BinaryOp} (hop : op.isArithmetic = true) (loc : Location)
    (left right : Expr) {a b : Int64} {state : State σ} (ha : a.toInt = left.exact state.env)
    (hb : b.toInt = right.exact state.env) :
    Answers ((Expr.binary op left right).exact state.env) state
      (((Expr.binary op left right).refusal? state.env).map fun halt => (halt, loc))
      (applyStrict op loc (.int a) (.int b) state) := by
  rw [Expr.refusal?, Expr.exact, ← ha, ← hb, applyStrict, Value.apply_arithmetic hop]
  by_cases hzero : op = .div ∧ b.toInt = 0
  · rw [if_pos hzero, if_pos hzero]
    rfl
  · rw [if_neg hzero, if_neg hzero, Value.exactly]
    by_cases h : InInt64 (op.exact a.toInt b.toInt)
    · obtain ⟨m, hm, hexact⟩ := fit64_eq_some h
      rw [if_pos h, hm]
      exact ⟨m, rfl, hexact⟩
    · rw [if_neg h, fit64_eq_none h]
      rfl

theorem eval_binary_arithmetic (setup : Setup σ) {op : BinaryOp} (hop : op.isArithmetic = true)
    (left right : Expr) :
    eval setup (.binary op left right) = (do
      let lhs ← eval setup left
      let rhs ← eval setup right
      applyStrict op left.loc lhs rhs) := by
  rw [eval]
  cases op with
  | add => rfl
  | sub => rfl
  | mul => rfl
  | div => rfl
  | _ => cases hop

/-- By induction on the expression: its own operation is reached only if no operand was refused, and
then it is applied to their exact values. -/
theorem eval_answers (setup : Setup σ) {e : Expr} {state : State σ}
    (h : e.IsArithmetic state.env) :
    Answers (e.exact state.env) state (e.firstRefusal? state.env) (eval setup e state) := by
  induction h with
  | int n loc => exact ⟨n, by rw [eval]; rfl, rfl⟩
  | @ident name n loc hname =>
    refine ⟨n, ?_, by rw [Expr.exact, hname]⟩
    rw [eval, bind_ok (read_at hname)]
    rfl
  | @neg operand loc h ih =>
    rw [Expr.firstRefusal?_neg, eval]
    cases hoperand : operand.firstRefusal? state.env with
    | none =>
      rw [hoperand] at ih
      obtain ⟨n, heval, hn⟩ := ih
      rw [Option.none_or, bind_ok heval]
      exact negate_answers loc operand hn
    | some refusal =>
      rw [hoperand] at ih
      rw [Option.some_or]
      exact bind_error ih
  | @binary op left right hop hleft hright ihl ihr =>
    rw [Expr.firstRefusal?_binary, eval_binary_arithmetic setup hop]
    cases hl : left.firstRefusal? state.env with
    | none =>
      rw [hl] at ihl
      obtain ⟨a, hevall, ha⟩ := ihl
      rw [Option.none_or, bind_ok hevall]
      cases hr : right.firstRefusal? state.env with
      | none =>
        rw [hr] at ihr
        obtain ⟨b, hevalr, hb⟩ := ihr
        rw [Option.none_or, bind_ok hevalr]
        exact applyStrict_answers hop left.loc left right ha hb
      | some refusal =>
        rw [hr] at ihr
        rw [Option.some_or]
        exact bind_error ihr
    | some refusal =>
      rw [hl] at ihl
      rw [Option.some_or, Option.some_or]
      exact bind_error ihl

/-- Arithmetic is exact or ends the run. It has a value just if every part of it has a result of 64
bits and no divisor is zero, and then the value is the exact one and nothing else has happened. If
not, the first part in the order of computation that has no such result ends the run with an error at
its own place. -/
theorem eval_arithmetic (setup : Setup σ) {e : Expr} {state : State σ}
    (h : e.IsArithmetic state.env) :
    ((∃ n after, eval setup e state = (.ok (.int n), after)) ↔
        ∀ part ∈ e.parts, part.Computes state.env) ∧
      (∀ n after, eval setup e state = (.ok (.int n), after) →
        n.toInt = e.exact state.env ∧ after = state) ∧
      ((∃ part ∈ e.parts, ¬part.Computes state.env) →
        ∃ earlier part later halt, e.parts = earlier ++ part :: later ∧
          (∀ other ∈ earlier, other.Computes state.env) ∧ ¬part.Computes state.env ∧
          part.refusal? state.env = some halt ∧ halt.kind = .runtime ∧
          eval setup e state = (.error (terminate halt part.loc [] state), state)) := by
  have hanswer := eval_answers setup h
  have hnone := Expr.firstRefusal?_eq_none_iff h
  cases hfirst : e.firstRefusal? state.env with
  | none =>
    rw [hfirst] at hanswer
    obtain ⟨n, heval, hn⟩ := hanswer
    refine ⟨iff_of_true ⟨n, state, heval⟩ (hnone.1 hfirst), ?_, ?_⟩
    · intro m after hm
      rw [heval] at hm
      cases hm
      exact ⟨hn, rfl⟩
    · rintro ⟨part, hpart, hrefused⟩
      exact absurd (hnone.1 hfirst part hpart) hrefused
  | some refusal =>
    obtain ⟨halt, loc⟩ := refusal
    rw [hfirst] at hanswer hnone
    have herror : eval setup e state = (.error (terminate halt loc [] state), state) := hanswer
    have hnever : ∀ n after, eval setup e state ≠ (.ok (.int n), after) := by
      intro n after heval
      rw [herror] at heval
      cases heval
    refine ⟨iff_of_false ?_ (fun hall => nomatch hnone.2 hall), ?_, fun _ => ?_⟩
    · rintro ⟨n, after, heval⟩
      exact hnever n after heval
    · intro n after heval
      exact absurd heval (hnever n after)
    · obtain ⟨earlier, part, later, hparts, hpart, hearlier⟩ := List.findSome?_eq_some_iff.1 hfirst
      have harith : ∀ other ∈ e.parts, other.IsArithmetic state.env :=
        fun other => Expr.isArithmetic_of_mem_parts h
      have hmem : part ∈ e.parts := by
        rw [hparts]
        exact List.mem_append_right _ List.mem_cons_self
      obtain ⟨_, hrefusal, hpair⟩ := Option.map_eq_some_iff.1 hpart
      cases hpair
      refine ⟨earlier, part, later, halt, hparts, ?_, ?_, hrefusal, Expr.kind_of_refusal hrefusal,
        herror⟩
      · intro other hother
        have hother' : other ∈ e.parts := by
          rw [hparts]
          exact List.mem_append_left _ hother
        exact (Expr.refusal?_eq_none_iff (harith other hother')).1
          (Option.map_eq_none_iff.1 (hearlier other hother))
      · intro hcomputes
        rw [(Expr.refusal?_eq_none_iff (harith part hmem)).2 hcomputes] at hrefusal
        cases hrefusal

/-- The least integer is reached through the greatest one. A product that is too large ends the run,
though the subtraction behind it would have led back, and before the division by zero is reached. -/
theorem eval_arithmetic_product_not_undone :
    let context : Context Unit :=
      { registry := ⟨Dict.empty, Dict.empty⟩
        probe :=
          { pose := fun world => (.error (.unavailable ""), world)
            blockAt := fun _ world => (.ok none, world)
            findBlock := fun _ _ _ world => (.ok none, world) } }
    let setup : Setup Unit := ⟨context, {}⟩
    let s : State Unit :=
      { State.initial default () with
        env := Env.empty.declare "x" (.int 9223372036854775807) }
    let x (column : Nat) : Expr := .ident "x" ⟨1, column⟩
    let least : Expr := .binary .sub (.unary .neg (x 2) ⟨1, 1⟩) (.int 1 ⟨1, 6⟩)
    let doubled : Expr := .binary .mul (x 2) (.int 2 ⟨1, 6⟩)
    let undone : Expr := .binary .div (.binary .sub doubled (x 10)) (.int 0 ⟨1, 15⟩)
    (∃ n, eval setup least s = (.ok (.int n), s) ∧ n.toInt = -9223372036854775808) ∧
      (¬∃ n after, eval setup undone s = (.ok (.int n), after)) ∧
      ∃ (part : Expr) (halt : Halt), part.refusal? s.env = some halt ∧ halt.kind = .runtime ∧
        terminate halt part.loc [] s =
          terminate (.operator (.overflow .mul)) doubled.loc [] s := by
  intro context setup s x least doubled undone
  have hx (column : Nat) : (x column).IsArithmetic s.env := .ident ⟨1, column⟩ rfl
  have hleast : least.IsArithmetic s.env := .binary rfl (.neg ⟨1, 1⟩ (hx 2)) (.int 1 ⟨1, 6⟩)
  have hundone : undone.IsArithmetic s.env :=
    .binary rfl (.binary rfl (.binary rfl (hx 2) (.int 2 ⟨1, 6⟩)) (hx 10)) (.int 0 ⟨1, 15⟩)
  have hrefused : ∃ part ∈ undone.parts, ¬part.Computes s.env :=
    ⟨doubled, .tail _ (.tail _ (.head _)), fun h => absurd h.1 (by decide)⟩
  obtain ⟨-, hexact, -⟩ := eval_arithmetic setup hleast
  obtain ⟨hiff, -, hfirst⟩ := eval_arithmetic setup hundone
  obtain ⟨earlier, part, later, halt, -, -, -, hrefusal, hkind, heval⟩ := hfirst hrefused
  have hvalue : eval setup least s = (.ok (.int (-9223372036854775808)), s) := rfl
  have herror : eval setup undone s =
      (.error (terminate (.operator (.overflow .mul)) doubled.loc [] s), s) := rfl
  refine ⟨⟨_, hvalue, (hexact _ _ hvalue).1⟩, ?_, part, halt, hrefusal, hkind, ?_⟩
  · intro hok
    obtain ⟨refused, hmem, hnot⟩ := hrefused
    exact hnot (hiff.1 hok refused hmem)
  · rw [herror] at heval
    injection heval with hanswer _
    injection hanswer with hterminate
    exact hterminate.symm

end Run

end BlockScript
