import BlockScript.Proofs.Run.Agreement
import BlockScript.Proofs.Run.Steps

/-!
# Budgets

No step of a run forgets an iteration that has begun, and every step gives back the calls that it
has opened. Hence the number that a loop counts down never shows: a loop ends because it has no more
rounds or because the start of a round halts the run.
-/
namespace BlockScript
set_option autoImplicit false

namespace Run

variable {σ α ι : Type}

/-- A step that begins no iteration and leaves no call open. -/
def Quiet (m : Run σ α) : Prop :=
  ∀ s, (m s).2.iterations = s.iterations ∧ (m s).2.depth = s.depth

namespace Quiet

/-- Evaluation, commands and checks begin no iteration and leave no call open. -/
theorem elementary (setup : Setup σ) : Elementary setup (fun _ => True) fun _ m => Quiet m := by
  have hmoves : Elementary setup (fun _ => True) (Moves fun s t : State σ =>
      t.iterations = s.iterations ∧ t.depth = s.depth) :=
    Moves.elementary setup (fun _ _ _ hdepth hiterations => ⟨hiterations, hdepth⟩)
      fun _ _ _ h h' => ⟨h'.1.trans h.1, h'.2.trans h.2⟩
  exact hmoves

theorem fail (halt : Halt) (loc : Location) : Quiet (Run.fail halt loc : Run σ α) :=
  fun _ => ⟨rfl, rfl⟩

variable (setup : Setup σ)

theorem validate (statements : List Statement) : Quiet (Run.validate setup statements) :=
  (elementary setup).validate (fun _ _ => fail _ _) statements

theorem validateOnce (callee : Callee) : Quiet (Run.validateOnce setup callee) :=
  (elementary setup).validateOnce (fun _ _ => fail _ _) callee

theorem bindVariable (name : String) (loc : Location) (value : Value) :
    Quiet (Run.bindVariable setup name loc value) :=
  (elementary setup).bind ((elementary setup).trace loc _) fun _ _ => ⟨rfl, rfl⟩

theorem assign (name : String) (value : Value) : Quiet (Run.assign name value : Run σ Bool) := by
  intro s
  unfold Run.assign
  split <;> exact ⟨rfl, rfl⟩

theorem assignVariable (name : String) (loc : Location) (value : Value) :
    Quiet (Run.assignVariable setup name loc value) :=
  (elementary setup).assignVariable (assign name value) loc

end Quiet

/-! ## Steps that may begin iterations -/

/-- A step that forgets no iteration and gives back its calls. -/
def Steady (m : Run σ α) : Prop :=
  ∀ s, s.iterations ≤ (m s).2.iterations ∧ (m s).2.depth = s.depth

theorem Quiet.steady {m : Run σ α} (h : Quiet m) : Steady m :=
  fun s => ⟨Nat.le_of_eq (h s).1.symm, (h s).2⟩

namespace Steady

theorem le {m : Run σ α} (h : Steady m) {s s' : State σ} {answer : Except Termination α}
    (hm : m s = (answer, s')) : s.iterations ≤ s'.iterations := by
  have hs := (h s).1
  rwa [hm] at hs

theorem inScope {m : Run σ α} (h : Steady m) : Steady (Run.inScope m) :=
  fun s => h { s with env := s.env.push }

theorem inFrame (bound : List (String × Value)) {m : Run σ α} (h : Steady m) :
    Steady (Run.inFrame bound m) := by
  intro s
  obtain ⟨hi, hd⟩ := h { s with
    env := bound.foldl (fun env binding => env.declare binding.1 binding.2) s.env.pushFrame
    depth := s.depth + 1 }
  refine ⟨hi, ?_⟩
  change (m _).2.depth - 1 = s.depth
  rw [hd]
  rfl

/-- No step of a run forgets an iteration or keeps a call open. -/
theorem pervasive (setup : Setup σ) : Pervasive setup fun _ m => Steady m where
  toElementary := by
    have hmoves : Elementary setup (fun _ => True) (Moves fun s t : State σ =>
        s.iterations ≤ t.iterations ∧ t.depth = s.depth) :=
      Moves.elementary setup
        (fun _ _ _ hdepth hiterations => ⟨Nat.le_of_eq hiterations.symm, hdepth⟩)
        fun _ _ _ h h' => ⟨Nat.le_trans h.1 h'.1, h'.2.trans h.2⟩
    exact hmoves
  unknown := fun _ _ => (Quiet.fail _ _).steady
  iterate := fun _ => ⟨Nat.le_succ _, rfl⟩
  declare := fun _ _ _ => ⟨Nat.le_refl _, rfl⟩
  hoist := fun _ _ => ⟨Nat.le_refl _, rfl⟩
  assign := fun name value => (Quiet.assign name value).steady
  inScope := inScope
  inFrame := inFrame

theorem call (setup : Setup σ) {enter : Enter σ}
    (henter : ∀ run ∈ enter, ∀ body, Steady (run body)) (command : CommandCall) (callee : Callee) :
    Steady (Run.call setup enter command callee) :=
  (pervasive setup).call henter command callee

theorem beginIteration (setup : Setup σ) (loc : Location) (iteration : Nat)
    (binding : Option (String × Int64)) :
    Steady (Run.beginIteration setup loc iteration binding) :=
  (pervasive setup).beginIteration (pervasive setup).iterate loc iteration binding

end Steady

/-! ## Loops -/

theorem checkCancelled_iterations {setup : Setup σ} {loc : Location}
    {answer : Except Termination Unit} {s s' : State σ}
    (h : checkCancelled setup loc s = (answer, s')) : s'.iterations = s.iterations := by
  have hquiet : Quiet (checkCancelled setup loc) := (Quiet.elementary setup).checkCancelled loc
  have hkept := (hquiet s).1
  rwa [h] at hkept

/-- An iteration that begins is counted and within the budget. -/
theorem beginIteration_ok {setup : Setup σ} {loc : Location} {iteration : Nat}
    {binding : Option (String × Int64)} {s s' : State σ}
    (h : beginIteration setup loc iteration binding s = (.ok (), s')) :
    s'.iterations = s.iterations + 1 ∧ s'.iterations ≤ setup.options.maxLoopIterations := by
  unfold beginIteration at h
  cases hc : checkCancelled setup loc s with
  | mk answer s₁ =>
    have hkept := checkCancelled_iterations hc
    cases answer with
    | error x =>
      rw [bind_error hc] at h
      cases h
    | ok _ =>
      rw [bind_ok hc] at h
      change (if setup.options.maxLoopIterations < s₁.iterations + 1 then fail _ loc
        else trace setup loc _ : Run σ Unit) { s₁ with iterations := s₁.iterations + 1 } = _ at h
      split at h
      · cases h
      · next hle =>
        rw [trace_eq] at h
        cases h
        refine ⟨?_, Nat.le_of_not_lt hle⟩
        change s₁.iterations + 1 = s.iterations + 1
        rw [hkept]

/-- Rounds that keep the budget: each one that starts is counted, and none of its parts forgets. -/
structure Paced (max : Nat) (rounds : Rounds σ ι) : Prop where
  more : ∀ i, Steady (rounds.more i)
  start : ∀ i, Steady (rounds.start i)
  body : ∀ i, Steady (rounds.body i)
  counted : ∀ i s s', rounds.start i s = (.ok (), s') →
    s'.iterations = s.iterations + 1 ∧ s'.iterations ≤ max

namespace Paced

variable {max : Nat} {rounds : Rounds σ ι}

/-- With the whole budget left, one more turn of the recursion changes nothing. -/
theorem loop_succ (h : Paced max rounds) {left : Nat} {i : ι} {s : State σ}
    (hleft : max ≤ s.iterations + left) :
    Run.loop rounds left i s = Run.loop rounds (left + 1) i s := by
  induction left generalizing i s with
  | zero =>
    refine bind_congr_at fun more s₁ hmore => ?_
    have hs₁ := (h.more i).le hmore
    cases more with
    | false => rfl
    | true =>
      change rounds.start i s₁ = (rounds.start i >>= fun _ => _) s₁
      cases hstart : rounds.start i s₁ with
      | mk answer s₂ =>
        cases answer with
        | error x => rw [bind_error hstart]
        | ok _ =>
          -- No iteration is left, so none can have begun.
          have hcounted := h.counted i s₁ s₂ hstart
          omega
  | succ left ih =>
    refine bind_congr_at fun more s₁ hmore => ?_
    have hs₁ := (h.more i).le hmore
    cases more with
    | false => rfl
    | true =>
      refine bind_congr_at fun _ s₂ hstart => bind_congr_at fun _ s₃ hbody => ?_
      have hcounted := h.counted i s₁ s₂ hstart
      have hs₃ := (h.body i).le hbody
      cases rounds.next i with
      | none => rfl
      | some j => exact ih (by omega)

theorem loop_add (h : Paced max rounds) {left : Nat} {i : ι} {s : State σ}
    (hleft : max ≤ s.iterations + left) (more : Nat) :
    Run.loop rounds left i s = Run.loop rounds (left + more) i s := by
  induction more with
  | zero => rfl
  | succ more ih => rw [ih, h.loop_succ (by omega), Nat.add_assoc]

end Paced

/-- The number that a loop counts down may be any that is large enough. -/
theorem runRounds_eq {setup : Setup σ} {rounds : Rounds σ ι}
    (h : Paced setup.options.maxLoopIterations rounds) {left : Nat} (i : ι) (s : State σ)
    (hleft : setup.options.maxLoopIterations ≤ left) :
    runRounds setup rounds i s = Run.loop rounds left i s := by
  let least := setup.options.maxLoopIterations - s.iterations
  have hleast : setup.options.maxLoopIterations ≤ s.iterations + least := by omega
  have hsplit : left = least + (left - least) := by omega
  change Run.loop rounds least i s = _
  rw [hsplit]
  exact h.loop_add hleast _

namespace Paced

variable {setup : Setup σ} {body : Run σ Unit}

theorem count (loc : Location) (count : Int64) (hbody : Steady body) :
    Paced setup.options.maxLoopIterations (countRounds setup loc count body) where
  more := fun _ => (Steady.pervasive setup).pure _
  start := fun _ => .beginIteration setup loc _ _
  body := fun _ => hbody
  counted := fun _ _ _ h => beginIteration_ok h

theorem test (loc : Location) {test : Run σ Bool} (htest : Steady test) (hbody : Steady body) :
    Paced setup.options.maxLoopIterations (whileRounds setup loc test body) where
  more := fun _ => htest
  start := fun _ => .beginIteration setup loc _ _
  body := fun _ => hbody
  counted := fun _ _ _ h => beginIteration_ok h

theorem range (loc : Location) (name : String) (stop step : Int64) (hbody : Steady body) :
    Paced setup.options.maxLoopIterations (rangeRounds setup loc name stop step body) where
  more := fun _ => (Steady.pervasive setup).pure _
  start := fun _ => .beginIteration setup loc _ _
  body := fun _ => by
    have hsteady := Steady.pervasive setup
    exact .inScope (hsteady.bind (hsteady.declare name _) fun _ => hbody)
  counted := fun _ _ _ h => beginIteration_ok h

end Paced

end Run

end BlockScript
