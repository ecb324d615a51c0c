import BlockScript.Proofs.Run.Steps
import BlockScript.Proofs.Run.Stepwise

/-!
# Every run halts

The machine that runs a program step by step comes to an end, and it ends as the run does. The
argument follows the shape of a run: calls nest as deep as the options allow, statements are part of
the program, and the rounds of a loop are paid for by iterations that are left.
-/
namespace BlockScript
set_option autoImplicit false

namespace Run

variable {σ α ι : Type} (setup : Setup σ)

/-- A state in which calls may nest so many levels deeper and no budget is exceeded. -/
structure Ready (level : Nat) (s : State σ) : Prop where
  depth : s.depth + level = setup.options.maxCallDepth
  within : s.iterations ≤ setup.options.maxLoopIterations

/-- On top of whatever else is left to do, the tasks come to this result. -/
def Leads (tasks : List Task) (s : State σ) (result : Except Termination Unit × State σ) : Prop :=
  ∀ rest, ∃ begun,
    Reaches setup ⟨tasks ++ rest, s, .ok (), s.iterations⟩ ⟨rest, result.2, result.1, begun⟩ ∧
      (result.1 = .ok () → begun = result.2.iterations)

/-- The tasks do what the step does. -/
def Completes (level : Nat) (tasks : List Task) (m : Run σ Unit) : Prop :=
  ∀ s, Ready setup level s → Leads setup tasks s (m s)

/-- The step is what opens the tasks, followed by the tasks. -/
def Opens (level : Nat) (opened : Run σ (List Task)) (m : Run σ Unit) : Prop :=
  ∀ s, Ready setup level s →
    (∀ tasks s', opened s = (.ok tasks, s') →
      s'.iterations = s.iterations ∧ Leads setup tasks s' (m s)) ∧
    (∀ x s', opened s = (.error x, s') → m s = (.error x, s'))

variable {setup} {level : Nat}

theorem Ready.depth_le {s : State σ} (h : Ready setup level s) :
    s.depth ≤ setup.options.maxCallDepth := by
  have hdepth := h.depth
  omega

theorem Ready.quiet {s s' : State σ} (h : Ready setup level s) {m : Run σ α} (hm : Quiet m)
    {answer : Except Termination α} (hs : m s = (answer, s')) : Ready setup level s' := by
  obtain ⟨hiterations, hdepth⟩ := hm s
  rw [hs] at hiterations hdepth
  exact ⟨hdepth.symm ▸ h.depth, hiterations.symm ▸ h.within⟩

/-! ## Tasks -/

namespace Leads

theorem nil {s : State σ} (h : Ready setup level s) : Leads setup [] s (.ok (), s) := by
  intro rest
  exact ⟨s.iterations, .here ⟨h.depth_le, h.within⟩, fun _ => rfl⟩

/-- A task that goes on in other tasks. -/
theorem of_ok {task : Task} {s s' : State σ} {advance : Advance}
    {result : Except Termination Unit × State σ} (h : Ready setup level s)
    (hrun : task.run setup s = (.ok advance, s'))
    (hbegun : s'.iterations = s.iterations + advance.begun)
    (hrest : Leads setup advance.tasks s' result) : Leads setup [task] s result := by
  intro rest
  obtain ⟨begun, hreaches, hcount⟩ := hrest rest
  refine ⟨begun, .step ⟨h.depth_le, h.within⟩ ?_ hreaches, hcount⟩
  rw [hbegun]
  exact Config.next_of_ok hrun rest s.iterations

/-- A task that terminates the run. -/
theorem of_error {task : Task} {s s' : State σ} {x : Termination} (h : Ready setup level s)
    (hrun : task.run setup s = (.error x, s')) (hdepth : s'.depth = s.depth) :
    Leads setup [task] s (.error x, s') := by
  intro rest
  refine ⟨s.iterations, .step ⟨h.depth_le, h.within⟩ ?_ (.here ⟨?_, h.within⟩), fun hok => ?_⟩
  · exact Config.next_of_error hrun rest s.iterations
  · exact hdepth.symm ▸ h.depth_le
  · cases hok

theorem unwind_depth (task : Task) (s : State σ) : (task.unwind s).depth ≤ s.depth := by
  cases task with
  | closeFrame => exact Nat.sub_le ..
  | closeScope => exact Nat.le_refl _
  | whole program => exact Nat.le_refl _
  | each statements => exact Nat.le_refl _
  | count => exact Nat.le_refl _
  | test => exact Nat.le_refl _
  | range => exact Nat.le_refl _

/-- A termination leaves no task undone that has something to close. -/
theorem reaches_unwound (tasks rest : List Task) {s : State σ} {x : Termination} {begun : Nat}
    (h : Config.Within setup ⟨tasks ++ rest, s, .error x, begun⟩) :
    Reaches setup ⟨tasks ++ rest, s, .error x, begun⟩
      ⟨rest, tasks.foldl (fun s task => task.unwind s) s, .error x, begun⟩ := by
  induction tasks generalizing s with
  | nil => exact .here h
  | cons task tasks ih =>
    refine .step h rfl (ih ⟨?_, h.begun⟩)
    exact Nat.le_trans (unwind_depth task s) h.depth

/-- Tasks one after the other; if the first ones terminate the run, the others are unwound. -/
theorem append {first second : List Task} {s : State σ}
    {middle result : Except Termination Unit × State σ} (hfirst : Leads setup first s middle)
    (hok : ∀ s', middle = (.ok (), s') → s'.iterations ≤ setup.options.maxLoopIterations →
      Leads setup second s' result)
    (herror : ∀ x s', middle = (.error x, s') →
      result = (.error x, second.foldl (fun s task => task.unwind s) s')) :
    Leads setup (first ++ second) s result := by
  intro rest
  obtain ⟨begun, hreaches, hcount⟩ := hfirst (second ++ rest)
  rw [List.append_assoc]
  obtain ⟨answer, s'⟩ := middle
  cases answer with
  | ok _ =>
    have hbegun := hcount rfl
    dsimp only at hbegun hreaches
    subst hbegun
    obtain ⟨begun, hreaches', hcount'⟩ := hok s' rfl hreaches.within.begun rest
    exact ⟨begun, hreaches.trans hreaches', hcount'⟩
  | error x =>
    rw [herror x s' rfl]
    refine ⟨begun, hreaches.trans (reaches_unwound second rest hreaches.within), fun hok => ?_⟩
    cases hok

/-- A scope is closed on every way out. -/
theorem closeScope {tasks : List Task} {s : State σ} {result : Except Termination Unit × State σ}
    (h : Leads setup tasks s result)
    (hdepth : result.2.depth + level = setup.options.maxCallDepth) :
    Leads setup (tasks ++ [.closeScope]) s
      (result.1, { result.2 with env := result.2.env.pop }) := by
  refine h.append ?_ ?_
  · rintro s' rfl hwithin
    have hready : Ready setup level s' := ⟨hdepth, hwithin⟩
    have hafter : Ready setup level { s' with env := s'.env.pop } := ⟨hdepth, hwithin⟩
    have hrun : Task.closeScope.run setup s' = (.ok ⟨[], 0⟩, { s' with env := s'.env.pop }) := rfl
    exact of_ok hready hrun rfl (nil hafter)
  · rintro x s' rfl
    rfl

/-- A frame is closed on every way out. -/
theorem closeFrame {tasks : List Task} {s : State σ} {result : Except Termination Unit × State σ}
    (h : Leads setup tasks s result) (hdepth : result.2.depth + level = setup.options.maxCallDepth)
    (hopen : 0 < result.2.depth) :
    Leads setup (tasks ++ [.closeFrame]) s
      (result.1, { result.2 with env := result.2.env.pop, depth := result.2.depth - 1 }) := by
  refine h.append ?_ ?_
  · rintro s' rfl hwithin
    have hready : Ready setup level s' := ⟨hdepth, hwithin⟩
    have hafter : Ready setup (level + 1)
        { s' with env := s'.env.pop, depth := s'.depth - 1 } := by
      refine ⟨?_, hwithin⟩
      dsimp only at hdepth hopen ⊢
      omega
    have hrun : Task.closeFrame.run setup s' =
        (.ok ⟨[], 0⟩, { s' with env := s'.env.pop, depth := s'.depth - 1 }) := rfl
    exact of_ok hready hrun rfl (nil hafter)
  · rintro x s' rfl
    rfl

end Leads

/-! ## What opens tasks -/

namespace Opens

theorem nothing {m : Run σ Unit} (hm : Quiet m) :
    Opens setup level (m >>= fun _ => pure []) m := by
  intro s hready
  cases hs : m s with
  | mk answer s₁ =>
    have hready₁ := hready.quiet hm hs
    cases answer with
    | ok _ =>
      rw [bind_ok hs]
      refine ⟨fun tasks s' h => ?_, fun x s' h => by cases h⟩
      cases h
      have hcount := (hm s).1
      rw [hs] at hcount
      exact ⟨hcount, .nil hready₁⟩
    | error x =>
      rw [bind_error hs]
      refine ⟨fun tasks s' h => (by cases h), fun x' s' h => ?_⟩
      cases h
      rfl

theorem done : Opens setup level (pure []) (pure ()) := nothing ((Quiet.elementary setup).pure ())

theorem fail (halt : Halt) (loc : Location) :
    Opens setup level (Run.fail halt loc) (Run.fail halt loc) :=
  nothing (.fail halt loc)

theorem bind {m : Run σ α} {opened : α → Run σ (List Task)} {k : α → Run σ Unit} (hm : Quiet m)
    (hk : ∀ a, Opens setup level (opened a) (k a)) :
    Opens setup level (m >>= opened) (m >>= k) := by
  intro s hready
  cases hs : m s with
  | mk answer s₁ =>
    have hready₁ := hready.quiet hm hs
    have hcount : s₁.iterations = s.iterations := by
      have h := (hm s).1
      rwa [hs] at h
    cases answer with
    | ok a =>
      rw [bind_ok hs, bind_ok hs]
      obtain ⟨hok, herror⟩ := hk a s₁ hready₁
      refine ⟨fun tasks s' h => ?_, herror⟩
      obtain ⟨hcount', hleads⟩ := hok tasks s' h
      exact ⟨hcount'.trans hcount, hleads⟩
    | error x =>
      rw [bind_error hs, bind_error hs]
      refine ⟨fun tasks s' h => (by cases h), fun x' s' h => ?_⟩
      cases h
      rfl

theorem tasks {tasks : List Task} {m : Run σ Unit} (h : Completes setup level tasks m) :
    Opens setup level (pure tasks) m := by
  intro s hready
  refine ⟨fun tasks' s' hs => ?_, fun x s' hs => by cases hs⟩
  cases hs
  exact ⟨rfl, h s hready⟩

/-- A body with the scope that it opens. -/
theorem body {enter : Enter σ} {body : Body Statement}
    (h : Completes setup level [.each body.statements] (execEach setup enter body.statements))
    (hsteady : Steady (execEach setup enter body.statements)) :
    Opens setup level (openBody body) (execBody setup enter body) := by
  intro s hready
  obtain ⟨statements, loc⟩ := body
  let s₁ : State σ :=
    { s with env := (statements.filterMap Statement.macro?).foldl Env.define s.env.push }
  have hready₁ : Ready setup level s₁ := ⟨hready.depth, hready.within⟩
  have hopen : openBody ⟨statements, loc⟩ s = (.ok [.each statements, .closeScope], s₁) := rfl
  refine ⟨fun tasks s' hs => ?_, fun x s' hs => by cases hopen.symm.trans hs⟩
  cases hopen.symm.trans hs
  have hdepth : (execEach setup enter statements s₁).2.depth + level =
      setup.options.maxCallDepth := by
    rw [(hsteady s₁).2]
    exact hready₁.depth
  exact ⟨rfl, (h s₁ hready₁).closeScope hdepth⟩

/-- A body in the scope of the variable of its loop. -/
theorem round {enter : Enter σ} {body : Body Statement} (name : String) (value : Int64)
    (h : Opens setup level (openBody body) (execBody setup enter body))
    (hsteady : Steady (execBody setup enter body)) :
    Opens setup level (openRound name value body)
      (inScope do
        modify fun state => { state with env := state.env.declare name (.int value) }
        execBody setup enter body) := by
  intro s hready
  let s₁ : State σ := { s with env := s.env.push.declare name (.int value) }
  have hready₁ : Ready setup level s₁ := ⟨hready.depth, hready.within⟩
  have hdepth : (execBody setup enter body s₁).2.depth + level = setup.options.maxCallDepth := by
    rw [(hsteady s₁).2]
    exact hready₁.depth
  obtain ⟨hok, -⟩ := h s₁ hready₁
  -- Opening a body cannot fail.
  obtain ⟨tasks₁, s₂, hopen⟩ : ∃ tasks s₂, openBody body s₁ = (.ok tasks, s₂) := ⟨_, _, rfl⟩
  have hround : openRound name value body s = (.ok (tasks₁ ++ [.closeScope]), s₂) := by
    change (openBody body >>= fun tasks => pure (tasks ++ [.closeScope])) s₁ = _
    rw [bind_ok hopen]
    rfl
  refine ⟨fun tasks s' hs => ?_, fun x s' hs => by cases hround.symm.trans hs⟩
  cases hround.symm.trans hs
  obtain ⟨hcount, hleads⟩ := hok tasks₁ s₂ hopen
  exact ⟨hcount, hleads.closeScope hdepth⟩

/-- A task that opens others and leaves a rest for after them does a step and then the rest. -/
theorem leads {task : Task} {again : List Task} {opened : Run σ (List Task)} {m k : Run σ Unit}
    {s s₁ : State σ} {begun : Nat} (h : Opens setup level opened m) (hm : Steady m)
    (hready : Ready setup level s) (hready₁ : Ready setup level s₁)
    (hbegun : s₁.iterations = s.iterations + begun)
    (hrun : task.run setup s = (opened >>= fun tasks => pure ⟨tasks ++ again, begun⟩) s₁)
    (hplain : ∀ s : State σ, again.foldl (fun s task => task.unwind s) s = s)
    (hrest : ∀ s₂, Ready setup level s₂ → s₁.iterations ≤ s₂.iterations →
      Leads setup again s₂ (k s₂)) :
    Leads setup [task] s ((m >>= fun _ => k) s₁) := by
  obtain ⟨hok, herror⟩ := h s₁ hready₁
  obtain ⟨hle, hdepth⟩ := hm s₁
  cases hopen : opened s₁ with
  | mk answer s' =>
    cases answer with
    | error x =>
      have hms := herror x s' hopen
      rw [bind_error hopen] at hrun
      rw [hms] at hdepth
      rw [bind_error hms]
      refine .of_error hready hrun ?_
      have hdepth₀ := hready.depth
      have hdepth₁ := hready₁.depth
      dsimp only at hdepth
      omega
    | ok tasks =>
      obtain ⟨hcount, hleads⟩ := hok tasks s' hopen
      rw [bind_ok hopen] at hrun
      refine .of_ok hready hrun (hcount.trans hbegun) (hleads.append ?_ ?_)
      · intro s₂ hms hwithin
        rw [hms] at hle hdepth
        rw [bind_ok hms]
        exact hrest s₂ ⟨hdepth.symm ▸ hready₁.depth, hwithin⟩ hle
      · intro x s₂ hms
        rw [bind_error hms, hplain]

end Opens

/-! ## Loops -/

section Loops

variable {rounds : Rounds σ ι} {task : ι → Task} {opened : ι → Run σ (List Task)}

/-- One test of a loop does what one turn of the recursion does. -/
theorem turn_leads (hpaced : Paced setup.options.maxLoopIterations rounds) {i : ι}
    (hmore : Quiet (rounds.more i)) (hopened : Opens setup level (opened i) (rounds.body i))
    (hrun : (task i).run setup =
      turn (rounds.more i) (rounds.start i) (opened i) ((rounds.next i).map task).toList)
    (hplain : ∀ i (s : State σ), (task i).unwind s = s) {s : State σ} (hready : Ready setup level s)
    {left : Nat} (hagain : ∀ j s', Ready setup level s' → s.iterations < s'.iterations →
      Leads setup [task j] s' (loop rounds left j s')) :
    Leads setup [task i] s (loop rounds (left + 1) i s) := by
  rw [loop]
  cases hm : rounds.more i s with
  | mk answer s₁ =>
    obtain ⟨hcount₁, hdepth₁⟩ := hmore s
    rw [hm] at hcount₁ hdepth₁
    have hready₁ := hready.quiet hmore hm
    match answer with
    | .error x =>
      rw [bind_error hm]
      refine .of_error hready ?_ hdepth₁
      rw [hrun]
      exact bind_error hm
    | .ok false =>
      rw [bind_ok hm]
      have hstop : (task i).run setup s = (.ok ⟨[], 0⟩, s₁) := by
        rw [hrun]
        exact bind_ok hm
      exact .of_ok hready hstop hcount₁ (.nil hready₁)
    | .ok true =>
      rw [bind_ok hm, if_pos rfl]
      have hgo : (task i).run setup s =
          (rounds.start i >>= fun _ => opened i >>= fun tasks =>
            pure ⟨tasks ++ ((rounds.next i).map task).toList, 1⟩) s₁ := by
        rw [hrun]
        exact bind_ok hm
      cases hstart : rounds.start i s₁ with
      | mk answer s₂ =>
        have hdepth₂ := (hpaced.start i s₁).2
        rw [hstart] at hdepth₂
        cases answer with
        | error x =>
          rw [bind_error hstart] at hgo ⊢
          exact .of_error hready hgo (hdepth₂.trans hdepth₁)
        | ok _ =>
          rw [bind_ok hstart] at hgo ⊢
          obtain ⟨hcount₂, hwithin₂⟩ := hpaced.counted i s₁ s₂ hstart
          have hready₂ : Ready setup level s₂ := ⟨hdepth₂.symm ▸ hready₁.depth, hwithin₂⟩
          have hbegun : s₂.iterations = s.iterations + 1 := by rw [hcount₂, hcount₁]
          refine hopened.leads (hpaced.body i) hready hready₂ hbegun hgo ?_ ?_
          · intro s'
            cases rounds.next i with
            | none => rfl
            | some j => exact hplain j s'
          · intro s₃ hready₃ hle
            cases rounds.next i with
            | none => exact .nil hready₃
            | some j => exact hagain j s₃ hready₃ (by omega)

/-- A loop goes on for as many tests as its recursion has turns, and none is missing at the end. -/
theorem loop_completes (hpaced : Paced setup.options.maxLoopIterations rounds)
    (hmore : ∀ i, Quiet (rounds.more i))
    (hopened : ∀ i, Opens setup level (opened i) (rounds.body i))
    (hrun : ∀ i, (task i).run setup =
      turn (rounds.more i) (rounds.start i) (opened i) ((rounds.next i).map task).toList)
    (hplain : ∀ i (s : State σ), (task i).unwind s = s) {left : Nat} {i : ι} {s : State σ}
    (hready : Ready setup level s)
    (hleft : setup.options.maxLoopIterations ≤ s.iterations + left) :
    Leads setup [task i] s (loop rounds left i s) := by
  induction left generalizing i s with
  | zero =>
    rw [hpaced.loop_succ hleft]
    refine turn_leads hpaced (hmore i) (hopened i) (hrun i) hplain hready ?_
    intro j s' hready' hlt
    -- No iteration is left, so none can have begun.
    have hwithin := hready'.within
    omega
  | succ left ih =>
    refine turn_leads hpaced (hmore i) (hopened i) (hrun i) hplain hready ?_
    intro j s' hready' hlt
    exact ih hready' (by omega)

theorem rounds_complete (task : ι → Task) (hpaced : Paced setup.options.maxLoopIterations rounds)
    (hmore : ∀ i, Quiet (rounds.more i))
    (hopened : ∀ i, Opens setup level (opened i) (rounds.body i))
    (hrun : ∀ i, (task i).run setup =
      turn (rounds.more i) (rounds.start i) (opened i) ((rounds.next i).map task).toList)
    (hplain : ∀ i (s : State σ), (task i).unwind s = s) (i : ι) :
    Completes setup level [task i] (runRounds setup rounds i) := by
  intro s hready
  rw [runRounds_eq hpaced i s (Nat.le_refl _)]
  exact loop_completes hpaced hmore hopened hrun hplain hready (Nat.le_add_left ..)

end Loops

/-! ## Calls -/

theorem enterAt_steady (setup : Setup σ) (level : Nat) :
    ∀ run ∈ enterAt setup level, ∀ body, Steady (run body) :=
  (Steady.pervasive setup).enterAt level

theorem steady_execBody (setup : Setup σ) (level : Nat) (body : Body Statement) :
    Steady (execBody setup (enterAt setup level) body) :=
  (Steady.pervasive setup).execBody (enterAt_steady setup level) body

theorem steady_execEach (setup : Setup σ) (level : Nat) (statements : List Statement) :
    Steady (execEach setup (enterAt setup level) statements) :=
  (Steady.pervasive setup).execEach (enterAt_steady setup level) statements

/-- At the lowest level the depth of the calls is at its limit. -/
theorem opens_refused (command : CommandCall) (callee : Callee) :
    Opens setup 0 (openCall setup command callee)
      (call setup (enterAt setup 0) command callee) := by
  intro s hready
  have hdepth := hready.depth
  have hfull : setup.options.maxCallDepth < s.depth + 1 := by omega
  have hopen : openCall setup command callee s =
      fail (.callDepth setup.options.maxCallDepth command.name) command.loc s := by
    change (if setup.options.maxCallDepth < s.depth + 1 then _
      else openCallee setup command callee : Run σ (List Task)) s = _
    rw [if_pos hfull]
  rw [hopen]
  refine ⟨fun tasks s' h => (by cases h), fun x s' h => ?_⟩
  cases h
  rfl

theorem opens_frame (bound : List (String × Value)) {statements : List Statement}
    (h : Completes setup level [.each statements]
      (execEach setup (enterAt setup level) statements)) :
    Opens setup (level + 1) (openFrame bound statements)
      (inFrame bound (execAt setup level statements)) := by
  intro s hready
  let s₁ : State σ :=
    { s with
      env := (statements.filterMap Statement.macro?).foldl Env.define
        (bound.foldl (fun env binding => env.declare binding.1 binding.2) s.env.pushFrame)
      depth := s.depth + 1 }
  have hready₁ : Ready setup level s₁ := by
    refine ⟨?_, hready.within⟩
    have hdepth := hready.depth
    change s.depth + 1 + level = _
    omega
  refine ⟨fun tasks s' hs => ?_, fun x s' hs => (by cases hs)⟩
  cases hs
  rw [execAt_eq]
  have hsteady : (execEach setup (enterAt setup level) statements s₁).2.depth = s.depth + 1 :=
    (steady_execEach setup level statements s₁).2
  have hdepth : (execEach setup (enterAt setup level) statements s₁).2.depth + level =
      setup.options.maxCallDepth := by
    rw [hsteady]
    exact hready₁.depth
  have hopen : 0 < (execEach setup (enterAt setup level) statements s₁).2.depth := by
    rw [hsteady]
    exact Nat.succ_pos _
  exact ⟨rfl, (h s₁ hready₁).closeFrame hdepth hopen⟩

theorem opens_entered
    (h : ∀ statements, Completes setup level [.each statements]
      (execEach setup (enterAt setup level) statements)) (command : CommandCall)
    (callee : Callee) :
    Opens setup (level + 1) (openCall setup command callee)
      (call setup (enterAt setup (level + 1)) command callee) := by
  intro s hready
  have hdepth := hready.depth
  have hroom : ¬ setup.options.maxCallDepth < s.depth + 1 := by omega
  have hquiet := Quiet.elementary setup
  have hopens : Opens setup (level + 1) (openCallee setup command callee)
      (call setup (enterAt setup (level + 1)) command callee) :=
    .bind (hquiet.bindArgs _ _ _ Pervasive.allJudged) fun bound =>
      .bind (.validateOnce setup callee) fun _ => .bind (hquiet.read _) fun _ =>
        .bind (hquiet.trace _ _) fun _ => opens_frame bound (h callee.body)
  have hopen : openCall setup command callee s = openCallee setup command callee s := by
    change (if setup.options.maxCallDepth < s.depth + 1 then
        fail (.callDepth setup.options.maxCallDepth command.name) command.loc
      else openCallee setup command callee : Run σ (List Task)) s = _
    rw [if_neg hroom]
  rw [hopen]
  exact hopens s hready

/-! ## Statements -/

/-- Every call at a level opens what it does. -/
def OpensCalls (setup : Setup σ) (level : Nat) : Prop :=
  ∀ command callee, Opens setup level (openCall setup command callee)
    (call setup (enterAt setup level) command callee)

theorem opens_command (hcalls : OpensCalls setup level) (command : CommandCall) :
    Opens setup level (openCommand setup command)
      (execCommand setup (enterAt setup level) command) := by
  have hquiet := Quiet.elementary setup
  refine .bind (hquiet.read _) fun found => ?_
  cases found with
  | some m => exact hcalls command _
  | none =>
    dsimp only
    cases setup.context.registry.command? command.name with
    | some handler => exact .nothing (hquiet.dispatch Pervasive.allJudged handler)
    | none =>
      refine .bind (hquiet.fetch _ _) fun callee => ?_
      cases callee with
      | some callee => exact hcalls command callee
      | none => exact .fail _ _

mutual

theorem opens_statement (hcalls : OpensCalls setup level) :
    ∀ statement : Statement, Opens setup level (openStatement setup statement)
      (execStatement setup (enterAt setup level) statement)
  | .define .. => .done
  | .empty => .done
  | .cond test yes no loc => by
    have hquiet := Quiet.elementary setup
    refine .bind (hquiet.evalCondition Pervasive.allJudged) fun taken =>
      .bind (hquiet.trace loc _) fun _ => ?_
    cases taken with
    | true => exact opens_body hcalls yes
    | false => exact opens_alternative hcalls no
  | .repeatCount count body loc => by
    have hquiet := Quiet.elementary setup
    refine .bind (hquiet.evalInt _ Pervasive.allJudged) fun n => .tasks ?_
    have hsteady := steady_execBody setup level body
    exact rounds_complete (fun i => .count loc n body i) (.count loc n hsteady)
      (fun _ => hquiet.pure _) (fun _ => opens_body hcalls body) (fun _ => rfl) (fun _ _ => rfl) 0
  | .repeatRange name start stop step body loc => by
    have hquiet := Quiet.elementary setup
    refine .bind (hquiet.evalInt _ Pervasive.allJudged) fun first =>
      .bind (hquiet.evalInt _ Pervasive.allJudged) fun last =>
        .bind (hquiet.rangeStep fun _ _ => Pervasive.allJudged) fun stride => ?_
    have hsteady := steady_execBody setup level body
    split
    · exact .fail _ loc
    · refine .tasks (rounds_complete (fun c => .range loc name last stride body c)
        (.range loc name last stride hsteady) (fun _ => hquiet.pure _)
        (fun c => .round name c.value (opens_body hcalls body) hsteady) (fun c => ?_)
        (fun _ _ => rfl) _)
      have hagain : ((fit64 (c.value.toInt + stride.toInt)).map fun value =>
            (⟨c.iteration + 1, value⟩ : Counter)).map (Task.range loc name last stride body) =
          (fit64 (c.value.toInt + stride.toInt)).map fun value =>
            .range loc name last stride body ⟨c.iteration + 1, value⟩ := Option.map_map ..
      exact congrArg (fun again => turn _ _ _ again.toList) hagain.symm
  | .loop test body loc => by
    have hquiet : Quiet (evalCondition setup test) :=
      (Quiet.elementary setup).evalCondition Pervasive.allJudged
    exact .tasks (rounds_complete (fun i => .test loc test body i)
      (.test loc hquiet.steady (steady_execBody setup level body)) (fun _ => hquiet)
      (fun _ => opens_body hcalls body) (fun _ => rfl) (fun _ _ => rfl) 0)
  | .assert test message loc => by
    have hquiet := Quiet.elementary setup
    refine .bind (hquiet.evalCondition Pervasive.allJudged) fun passed =>
      .bind (hquiet.trace loc _) fun _ => ?_
    cases passed with
    | true => exact .done
    | false => exact .fail _ loc
  | .bind name value loc =>
    .bind ((Quiet.elementary setup).eval value Pervasive.allJudged) fun v =>
      .nothing (.bindVariable setup name loc v)
  | .assign name value loc =>
    .bind ((Quiet.elementary setup).eval value Pervasive.allJudged) fun v =>
      .nothing (.assignVariable setup name loc v)
  | .command name args loc => opens_command hcalls ⟨name, args, loc⟩
  | .block body => opens_body hcalls body

theorem opens_body (hcalls : OpensCalls setup level) :
    ∀ body : Body Statement, Opens setup level (openBody body)
      (execBody setup (enterAt setup level) body)
  | ⟨statements, _⟩ => .body (each_completes hcalls statements)
    (steady_execEach setup level statements)

theorem opens_alternative (hcalls : OpensCalls setup level) :
    ∀ body : Option (Body Statement), Opens setup level (openAlternative body)
      (execAlternative setup (enterAt setup level) body)
  | none => .done
  | some body => opens_body hcalls body

theorem each_completes (hcalls : OpensCalls setup level) :
    ∀ statements : List Statement, Completes setup level [.each statements]
      (execEach setup (enterAt setup level) statements)
  | [] => by
    intro s hready
    have hrun : (Task.each []).run setup s = (.ok ⟨[], 0⟩, s) := rfl
    exact .of_ok hready hrun rfl (.nil hready)
  | statement :: rest => by
    intro s hready
    rw [execEach]
    cases hlocated : checkLocated setup statement s with
    | mk answer s₁ =>
      have hquiet : Quiet (checkLocated setup statement) :=
        (Quiet.elementary setup).checkLocated statement
      have hready₁ := hready.quiet hquiet hlocated
      obtain ⟨hcount₁, hdepth₁⟩ := hquiet s
      rw [hlocated] at hcount₁ hdepth₁
      cases answer with
      | error x =>
        rw [bind_error hlocated]
        exact .of_error hready (bind_error hlocated) hdepth₁
      | ok _ =>
        rw [bind_ok hlocated]
        have hgo : (Task.each (statement :: rest)).run setup s =
            (openStatement setup statement >>= fun tasks =>
              pure ⟨tasks ++ [.each rest], 0⟩) s₁ := bind_ok hlocated
        have hsteady : Steady (execStatement setup (enterAt setup level) statement) :=
          (Steady.pervasive setup).execStatement (enterAt_steady setup level) statement
        have hbegun : s₁.iterations = s.iterations + 0 := hcount₁
        exact (opens_statement hcalls statement).leads hsteady hready hready₁ hbegun hgo
          (fun _ => rfl) fun s₂ hready₂ _ => each_completes hcalls rest s₂ hready₂

end

/-- By induction on how deep calls may still nest. -/
theorem opensCalls (setup : Setup σ) (level : Nat) : OpensCalls setup level := by
  induction level with
  | zero => exact opens_refused
  | succ level ih => exact opens_entered fun statements => each_completes ih statements

/-! ## Whole runs -/

theorem whole_completes (setup : Setup σ) (program : Program) :
    Completes setup setup.options.maxCallDepth [.whole program] (body setup program) := by
  intro s hready
  unfold body
  cases hvalid : validate setup program s with
  | mk answer s₁ =>
    have hquiet : Quiet (validate setup program) := .validate setup program
    have hready₁ := hready.quiet hquiet hvalid
    obtain ⟨hcount₁, hdepth₁⟩ := hquiet s
    rw [hvalid] at hcount₁ hdepth₁
    cases answer with
    | error x =>
      rw [bind_error hvalid]
      exact .of_error hready (bind_error hvalid) hdepth₁
    | ok _ =>
      rw [bind_ok hvalid, execAt_eq]
      let s₂ : State σ :=
        { s₁ with env := (program.filterMap Statement.macro?).foldl Env.define s₁.env }
      have hready₂ : Ready setup setup.options.maxCallDepth s₂ := ⟨hready₁.depth, hready₁.within⟩
      have hrun : (Task.whole program).run setup s = (.ok ⟨[.each program], 0⟩, s₂) :=
        bind_ok hvalid
      exact .of_ok hready hrun hcount₁ (each_completes (opensCalls setup _) program s₂ hready₂)

/-- Every run halts within its budgets. Step by step, and with nothing to count the steps down, the
machine comes to a configuration in which nothing is left to do; its outcome and its state make the
report of the run. On the way no more calls are open than the options allow, and no more iterations
have begun. -/
theorem every_run_halts (setup : Setup σ) (program : Program) (journal : Journal) (world : σ) :
    ∃ steps last,
      (Config.initial program journal world).after setup steps = some last ∧
      last.next setup = none ∧
      finish (outcomeOf last.status) last.state = Run.program setup program journal world ∧
      ∀ i ≤ steps, ∃ config,
        (Config.initial program journal world).after setup i = some config ∧
        config.state.depth ≤ setup.options.maxCallDepth ∧
        config.begun ≤ setup.options.maxLoopIterations := by
  have hready : Ready setup setup.options.maxCallDepth (start journal world) :=
    ⟨Nat.zero_add _, Nat.zero_le _⟩
  obtain ⟨begun, hreaches, -⟩ := whole_completes setup program _ hready []
  obtain ⟨steps, hlast, hall⟩ := hreaches.steps
  refine ⟨steps, _, hlast, rfl, rfl, fun i hi => ?_⟩
  obtain ⟨config, hconfig, hwithin⟩ := hall i hi
  exact ⟨config, hconfig, hwithin.depth, hwithin.begun⟩

end Run

end BlockScript
