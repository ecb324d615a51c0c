import BlockScript.Proofs.Run.Bookkeeping
import BlockScript.Proofs.Run.Terminations

/-!
# The last command of a terminated run

A termination is written where a step fails, from the count of commands and the name of the latest
one. Every step that fails does so, except the loading of a stored function whose body cannot be
read. In the books, count and name are those of the latest result.
-/
namespace BlockScript
set_option autoImplicit false

/-- The termination tells the last of the results, or that there is none. -/
structure Termination.NamesLast (x : Termination) (results : List StepResult) : Prop where
  opIndex : x.lastOpIndex = results.getLast?.map StepResult.opIndex
  op : x.op = results.getLast?.map StepResult.op

theorem Halt.kind_ne_malformed {options : RunOptions} {halt : Halt}
    (h : halt.isRegular options = true) : halt.kind ≠ .malformed := by
  cases halt with
  | commandFailed kind op message =>
    rintro ⟨⟩
    rcases of_decide_eq_true h with hkind | ⟨-, hkind | hkind⟩ <;> cases hkind
  | unresolved error => cases error <;> nofun
  | probe error => cases error <;> nofun
  | predicateFault name fault => cases fault <;> nofun
  | _ => nofun

namespace Run

variable {σ : Type}

/-! ## Steps that fail -/

/-- The number of the latest command, from the count of commands. -/
def latestIndex (ops : Nat) : Option Nat := if ops = 0 then none else some (ops - 1)

/-- The termination has the count and the name of the state in which it was written. -/
structure Dated (x : Termination) (s : State σ) : Prop where
  kind : x.kind ≠ .malformed
  opIndex : x.lastOpIndex = latestIndex s.ops
  op : x.op = s.lastOp

/-- The termination for a function of the store whose body cannot be read. It names no command. -/
structure Unread (setup : Setup σ) (x : Termination) : Prop where
  kind : x.kind = .malformed
  opIndex : x.lastOpIndex = none
  op : x.op = none
  stored : ∃ name world function error,
    (setup.context.function setup.options.actor name world).1 = .ok (some function) ∧
      parse function.body = .error error ∧ x.loc = some error.loc

/-- One of these two ways to tell of a failure. -/
def Told (setup : Setup σ) (x : Termination) (s : State σ) : Prop := Dated x s ∨ Unread setup x

theorem unknown_kind (call : Call) : (unknown call).kind ≠ .malformed := by
  unfold unknown
  split <;> nofun

/-- Every step of a run fails in one of the two ways. -/
theorem told_pervasive (setup : Setup σ) : Pervasive setup (Fails (Told setup)) := by
  refine Fails.pervasive ?_ ?_ ?_ ?_
  · intro x s env depth htold
    exact htold.imp_left fun hdated => ⟨hdated.kind, hdated.opIndex, hdated.op⟩
  · intro halt loc notes s hregular
    exact .inl ⟨Halt.kind_ne_malformed hregular, rfl, rfl⟩
  · rintro α function error name loc world hanswer hparse s x s' ⟨⟩
    exact .inr ⟨rfl, rfl, rfl, name, world, function, error, hanswer, hparse, rfl⟩
  · intro call loc s
    exact .inl ⟨unknown_kind call, rfl, rfl⟩

/-! ## The latest result -/

/-- Count and name are those of the latest result. -/
structure Latest (events : List Event) (p : Outside σ) : Prop where
  opIndex : latestIndex p.ops = p.results.head?.map StepResult.opIndex
  op : p.lastOp = p.results.head?.map StepResult.op

theorem Latest.keeps (setup : Setup σ) : Keeps setup Latest where
  asked := fun _ _ _ _ _ h => ⟨h.opIndex, h.op⟩
  traced := fun _ _ _ _ h => ⟨h.opIndex, h.op⟩
  concluded := by
    rintro events p op result world footprint - hindex hop - -
    exact ⟨congrArg some hindex.symm, congrArg some hop.symm⟩

/-- What the books say at the end of a run. -/
theorem latest_body {setup : Setup σ} {program : Program} {journal : Journal} {world : σ}
    {answer : Except Termination Unit} {s : State σ}
    (h : body setup program (start journal world) = (answer, s)) : Latest [] s.outside := by
  obtain ⟨_, s₁, t, hrun, -, events, hmirrors, hlatest⟩ :=
    watched_body journal (Latest.keeps setup) program world ⟨rfl, rfl⟩
  rw [h] at hrun
  cases hrun
  refine ⟨?_, ?_⟩
  · rw [hmirrors.ops, hmirrors.results]
    exact hlatest.opIndex
  · rw [hmirrors.lastOp, hmirrors.results]
    exact hlatest.op

theorem Dated.namesLast {x : Termination} {s : State σ} (h : Dated x s)
    (hlatest : Latest [] s.outside) : x.NamesLast s.results.reverse where
  opIndex := by
    rw [List.getLast?_reverse, h.opIndex]
    exact hlatest.opIndex
  op := by
    rw [List.getLast?_reverse, h.op]
    exact hlatest.op

/-! ## Whole runs -/

/-- Terminations name the last executed command. When a run of a program is terminated, the
termination has number and name of the last result, or neither if there is no result. The exception
is a function of the store whose body cannot be read: its termination tells of no command, whatever
has been run. -/
theorem termination_names_last_command {setup : Setup σ} {program : Program} {journal : Journal}
    {world : σ} {x : Termination}
    (hx : (Run.program setup program journal world).1.outcome = .terminated x) :
    (x.kind ≠ .malformed →
      x.NamesLast (Run.program setup program journal world).1.results) ∧
    (x.kind = .malformed → Unread setup x) := by
  obtain ⟨s, hbody, hresults⟩ := body_of_terminated hx
  rw [hresults]
  rcases (told_pervasive setup).body program _ x s hbody with hdated | hunread
  · exact ⟨fun _ => hdated.namesLast (latest_body hbody), fun h => absurd h hdated.kind⟩
  · exact ⟨fun h => absurd hunread.kind h, fun _ => hunread⟩

/-- An assertion that fails after a command: the termination names that command. -/
theorem termination_names_last_command_of_assertion :
    let mark : CommandHandler Nat := { execute := fun _ marks => (.ok [], marks + 1) }
    let context : Context Nat :=
      { registry := ⟨Dict.empty.insert "mark" mark, Dict.empty⟩
        probe :=
          { pose := fun marks => (.error (.unavailable ""), marks)
            blockAt := fun _ marks => (.ok none, marks)
            findBlock := fun _ _ _ marks => (.ok none, marks) } }
    let setup : Setup Nat := ⟨context, {}⟩
    let program : Program :=
      [.command "mark" [] default, .assert (.bool false default) none default]
    ∃ x, (Run.program setup program default 0).1.outcome = .terminated x ∧
      x.kind = .assertion ∧
      x.NamesLast (Run.program setup program default 0).1.results ∧
      x.op = some "mark" := by
  intro mark context setup program
  have houtcome : (Run.program setup program default 0).1.outcome = .terminated
      { kind := .assertion, message := "assertion failed", loc := some default,
        lastOpIndex := some 0, op := some "mark", notes := [], stamp := default } := by
    decide +kernel
  obtain ⟨hnames, -⟩ := termination_names_last_command houtcome
  exact ⟨_, houtcome, rfl, hnames nofun, rfl⟩

/-- A command, then a call of a stored function whose body calls a function that cannot be read: the
command has a result, and the termination names no command. -/
theorem unread_body_forgets_command :
    let mark : CommandHandler Nat := { execute := fun _ marks => (.ok [], marks + 1) }
    let outer : StoredFunction := ⟨"outer", none, [], "inner();", 1⟩
    let inner : StoredFunction := ⟨"inner", none, [], "(", 1⟩
    let context : Context Nat :=
      { registry := ⟨Dict.empty.insert "mark" mark, Dict.empty⟩
        probe :=
          { pose := fun marks => (.error (.unavailable ""), marks)
            blockAt := fun _ marks => (.ok none, marks)
            findBlock := fun _ _ _ marks => (.ok none, marks) }
        function := fun _ name marks =>
          (.ok (if name = "outer" then some outer else if name = "inner" then some inner else none),
            marks) }
    let setup : Setup Nat := ⟨context, {}⟩
    let program : Program := [.command "mark" [] default, .command "outer" [] default]
    ∃ x, (Run.program setup program default 0).1.outcome = .terminated x ∧
      x.lastOpIndex = none ∧ x.op = none ∧
      (Run.program setup program default 0).1.results.getLast?.map StepResult.op = some "mark" ∧
      ¬ x.NamesLast (Run.program setup program default 0).1.results := by
  intro mark outer inner context setup program
  have houtcome : (Run.program setup program default 0).1.outcome = .terminated
      { kind := .malformed
        message := "in function 'inner': Syntax error at line 1, column 1: unexpected '('"
        loc := some ⟨1, 1⟩, lastOpIndex := none, op := none, notes := ["called at 1:1"]
        stamp := default } := by
    decide +kernel
  have hlast : (Run.program setup program default 0).1.results.getLast?.map StepResult.op =
      some "mark" := by
    decide +kernel
  refine ⟨_, houtcome, rfl, rfl, hlast, fun hnames => ?_⟩
  have hop := hnames.op
  rw [hlast] at hop
  cases hop

end Run

end BlockScript
