import BlockScript.Proofs.Run.Isolation
import BlockScript.Proofs.Run.Rounds

/-!
# Counts and ranges

A loop over a range is a loop over a count whose rounds have a scope more. A body in which the
variable of that scope is not mentioned runs alike in both, so both loops end alike; only what they
publish about their iterations differs.
-/
namespace BlockScript
set_option autoImplicit false

namespace Run

variable {σ ι : Type}

/-! ## A scope more on one side -/

/-- States of two runs with the same counters. The second has a scope more, below one that both have
opened, and the journals have noted the same since. -/
structure Widened (journal journal' : Journal) (name : String) (value : Value) (n : Nat)
    (s t : State σ) : Prop where
  outside : Beside journal journal' s.outside t.outside
  env : Env.Inserted name value n s.env t.env
  iterations : s.iterations = t.iterations
  depth : s.depth = t.depth
  functions : s.functions = t.functions
  validated : s.validated = t.validated

namespace Widened

variable {journal journal' : Journal} {name : String} {value : Value} {n : Nat} {s t : State σ}

theorem walks (journal journal' : Journal) (name : String) (value : Value) :
    Walks (Widened journal journal' name value : Nat → State σ → State σ → Prop)
      (Beside journal journal') (· ≠ name) where
  shows := fun _ =>
    { outside := fun h => h.outside
      update := fun h ho => { h with outside := ho } }
  vars := fun _ hne _ _ _ h => h.env.get? hne
  iterations := fun h => h.iterations
  depth := fun h => h.depth
  count := fun h => { h with iterations := congrArg (· + 1) h.iterations }
  define := fun h macros => { h with env := h.env.defineAll macros }
  declare := fun h other given => { h with env := h.env.declare other given }
  assign := fun h _ hne given =>
    optionRel_mono (h.env.assign? hne given) fun _ _ henv => { h with env := henv }
  push := fun h => { h with env := h.env.opened _ }
  pop := fun h => { h with env := h.env.pop }
  enter := fun h bound =>
    { h with env := (h.env.opened _).declareAll bound, depth := congrArg (· + 1) h.depth }
  leave := fun h => { h with env := h.env.pop, depth := congrArg (· - 1) h.depth }

theorem findMacro? (h : Widened journal journal' name value n s t) (macroName : String) :
    s.env.findMacro? macroName = t.env.findMacro? macroName :=
  Env.findMacro?_congr (h.env.macroIn? macroName) h.env.globals

/-- What a call would hide in two such states. -/
def shelter (hstamp : journal.createdAt = journal'.createdAt)
    (h : Widened journal journal' name value n s t) : Shelter where
  hidden := s.env.locals
  hidden' := t.env.locals
  outer := s.env.globals
  journal := journal
  journal' := journal'
  macros := h.env.macroIn?
  stamps := hstamp

/-- A step that runs alike around every frame runs alike here, and leaves the scopes as they are. -/
theorem follows_of_around {α : Type} {m : Run σ α} (hstamp : journal.createdAt = journal'.createdAt)
    (hm : ∀ shelter : Shelter, Follows shelter.Around (fun _ _ _ => False) m m) :
    Follows (Widened journal journal' name value n) (fun _ _ _ => False) m m := by
  refine ⟨fun s t h => ?_, fun _ _ _ hcut => hcut⟩
  have haround : (h.shelter hstamp).Around s t :=
    ⟨⟨h.outside, h.iterations, h.depth, h.functions, h.validated⟩, rfl, rfl, h.env.globals, rfl,
      rfl⟩
  obtain ⟨hanswer, hafter⟩ := ((hm (h.shelter hstamp)).agree s t haround).uncut
  obtain ⟨scopes, outer, hlength, hs, ht⟩ := h.env.levels
  refine .of_eq hanswer ⟨hafter.outside, ⟨⟨scopes, outer, hlength, ?_, ?_⟩, hafter.globals⟩,
    hafter.iterations, hafter.depth, hafter.functions, hafter.validated⟩
  · exact hafter.locals.trans hs
  · exact hafter.locals'.trans ht

variable (setup : Setup σ)

theorem call (hstamp : journal.createdAt = journal'.createdAt) (level : Nat) (command : CommandCall) (callee : Callee)
    (hargs : ∀ other ∈ Variables.ofArgs command.args, other ≠ name) :
    Follows (Widened journal journal' name value n) (fun _ _ _ => False)
      (Run.call setup (enterAt setup level) command callee)
      (Run.call setup (enterAt setup level) command callee) := by
  have hsight := sameSight_beside setup hstamp
  have hwalks := walks (σ := σ) journal journal' name value
  cases level with
  | zero => exact hsight.fail (hwalks.shows n) _ _
  | succ level =>
    change Follows _ _ (bindArgs setup _ _ _ _ >>= entered setup level command callee)
      (bindArgs setup _ _ _ _ >>= entered setup level command callee)
    refine .bind (hsight.bindArgs_of_vars (hwalks.shows n) _ _ _ (hwalks.showsVars hargs n))
      fun bound => ?_
    exact follows_of_around hstamp fun _ => Shelter.follows_entered setup level command callee bound

theorem execCommand (hstamp : journal.createdAt = journal'.createdAt) (level : Nat)
    (command : CommandCall) (hargs : ∀ other ∈ Variables.ofArgs command.args, other ≠ name) :
    Follows (Widened journal journal' name value n) (fun _ _ _ => False)
      (Run.execCommand setup (enterAt setup level) command)
      (Run.execCommand setup (enterAt setup level) command) := by
  have hsight := sameSight_beside setup hstamp
  have hwalks := walks (σ := σ) journal journal' name value
  refine .bind (.read fun s t h => h.findMacro? command.name) fun found => ?_
  cases found with
  | some m => exact call setup hstamp level command _ hargs
  | none =>
    cases setup.context.registry.command? command.name with
    | some handler =>
      exact (sameCommand_beside setup hstamp command handler).dispatch_of_vars hsight
        (hwalks.shows n) (hwalks.showsVars hargs n)
    | none =>
      refine .bind (follows_of_around hstamp fun shelter => ?_) fun callee => ?_
      · have hcourse := sameCourse_beside setup shelter.stamps
        exact Shelter.follows_blind (.fetch setup _ _)
          (hcourse.fetch ((Alike.tracks _).recalls 0) _ _)
      · cases callee with
        | some callee => exact call setup hstamp level command callee hargs
        | none => exact hsight.fail (hwalks.shows n) _ _

theorem executes (hstamp : journal.createdAt = journal'.createdAt) (level : Nat) :
    Executes setup setup (Widened journal journal' name value) (· ≠ name) (fun _ _ _ => False)
      (enterAt setup level) (enterAt setup level) where
  steady := enterAt_steady setup level
  steady' := enterAt_steady setup level
  command := fun _ command hargs => execCommand setup hstamp level command hargs

end Widened

/-! ## Runs that publish different traces -/

/-- States that are the same but for their journals, which are of the same run. -/
structure SameButJournal (s t : State σ) : Prop where
  others : { s with journal := t.journal } = t
  runId : s.journal.runId = t.journal.runId
  correlationId : s.journal.correlationId = t.journal.correlationId
  createdAt : s.journal.createdAt = t.journal.createdAt

theorem Follows.forM {R : State σ → State σ → Prop}
    {Cut : Termination → Outside σ → Outside σ → Prop} {turn turn' : ι → Run σ Unit}
    (h : ∀ item, Follows R Cut (turn item) (turn' item)) (items : List ι) :
    Follows R Cut (items.forM turn) (items.forM turn') := by
  induction items with
  | nil => exact .pure ()
  | cons item rest ih => exact .bind (h item) fun _ => ih

namespace SameButJournal

variable {s t : State σ}

theorem refl (s : State σ) : SameButJournal s s := ⟨rfl, rfl, rfl, rfl⟩

theorem reportOf_eq (h : SameButJournal s t) (outcome : Outcome) :
    reportOf s outcome = reportOf t outcome := by
  unfold reportOf
  rw [h.runId, h.correlationId, ← h.others]

theorem ask {α : Type} (act : Act σ α) :
    Follows SameButJournal (fun _ _ _ => False) (Run.ask act) (Run.ask act) := by
  refine ⟨fun s t h => ?_, fun _ _ _ hcut => hcut⟩
  obtain ⟨hothers, hrun, hcorrelation, hcreated⟩ := h
  have hworld : s.world = t.world := by rw [← hothers]
  rw [ask_eq, ask_eq, hworld]
  refine .both ⟨?_, hrun, hcorrelation, hcreated⟩
  rw [← hothers]
  rfl

theorem fail (halt : Halt) (loc : Location) :
    Follows SameButJournal (fun _ _ _ => False) (Run.fail halt loc : Run σ Unit)
      (Run.fail halt loc) := by
  refine ⟨fun s t h => ?_, fun _ _ _ hcut => hcut⟩
  have hsame : terminate halt loc [] s = terminate halt loc [] t := by
    unfold terminate
    rw [h.createdAt, ← h.others]
  exact .of_eq (congrArg Except.error hsame) h

theorem trace (setup : Setup σ) (loc : Location) (kind kind' : TraceKind) :
    Follows SameButJournal (fun _ _ _ => False) (Run.trace setup loc kind)
      (Run.trace setup loc kind') := by
  refine ⟨fun s t h => ?_, fun _ _ _ hcut => hcut⟩
  obtain ⟨hothers, hrun, hcorrelation, hcreated⟩ := h
  rw [trace_eq, trace_eq, ← hothers]
  unfold Outside.traced
  split <;> exact .both ⟨rfl, hrun, hcorrelation, hcreated⟩

/-- What an iteration tells of its variable is seen in the journal alone. -/
theorem beginIteration (setup : Setup σ) (loc : Location) (iteration : Nat)
    (binding binding' : Option (String × Int64)) :
    Follows SameButJournal (fun _ _ _ => False) (Run.beginIteration setup loc iteration binding)
      (Run.beginIteration setup loc iteration binding') := by
  refine .bind (.bind (ask setup.context.cancelled) fun cancelled => ?_) fun _ =>
    .bind (.modify ?_ fun _ => rfl) fun _ => .bind (.read ?_) fun begun => ?_
  · cases cancelled with
    | true => exact fail _ loc
    | false => exact .pure ()
  · intro s t h
    refine ⟨?_, h.runId, h.correlationId, h.createdAt⟩
    rw [← h.others]
  · intro s t h
    rw [← h.others]
  · split
    · exact fail _ loc
    · exact trace setup loc _ _

variable {name : String} {value : Value}

/-- A scope is opened on both sides, on the second one above a scope that holds a variable. -/
theorem opened (h : SameButJournal s t) (name : String) (value : Value) :
    Widened s.journal t.journal name value 0 { s with env := s.env.push }
      { t with env := (t.env.push.declare name value).push } := by
  obtain ⟨journal, rfl⟩ : ∃ journal, t = { s with journal := journal } :=
    ⟨t.journal, h.others.symm⟩
  exact ⟨⟨rfl, [], rfl, rfl⟩, Env.inserted_push s.env name value, rfl, rfl, rfl, rfl⟩

/-- The scopes are closed again, and the two environments are one. -/
theorem closed {u v : State σ} (h : SameButJournal s t)
    (hinner : Widened s.journal t.journal name value 0 u v) :
    SameButJournal { u with env := u.env.pop } { v with env := v.env.pop.pop } := by
  obtain ⟨⟨hothers, events, hu, hv⟩, henv, hiterations, hdepth, hfunctions, hvalidated⟩ := hinner
  have hlast := henv.pop_last
  have hu : u.journal = s.journal.noteAll events := hu
  have hv : v.journal = t.journal.noteAll events := hv
  refine ⟨?_, ?_, ?_, ?_⟩
  · cases u
    cases v
    simp_all [State.outside]
  · rw [hu, hv, Journal.noteAll_runId, Journal.noteAll_runId, h.runId]
  · rw [hu, hv, Journal.noteAll_correlationId, Journal.noteAll_correlationId, h.correlationId]
  · rw [hu, hv, Journal.noteAll_createdAt, Journal.noteAll_createdAt, h.createdAt]

/-- A body that does not mention the variable of a loop runs alike without it. -/
theorem execBody (setup : Setup σ) (level : Nat) {body : Body Statement}
    (hname : name ∉ Variables.ofBody body) (value : Value) :
    Follows SameButJournal (fun _ _ _ => False) (Run.execBody setup (enterAt setup level) body)
      (inScope do
        modify fun state => { state with env := state.env.declare name value }
        Run.execBody setup (enterAt setup level) body) := by
  obtain ⟨statements, loc⟩ := body
  refine ⟨fun s t h => ?_, fun _ _ _ hcut => hcut⟩
  have hwalks := Widened.walks (σ := σ) s.journal t.journal name value
  have heach : Follows (Widened s.journal t.journal name value 0) (fun _ _ _ => False)
      (execEach setup (enterAt setup level) statements)
      (execEach setup (enterAt setup level) statements) :=
    (sameCourse_beside setup h.createdAt).sameFlow.execEach hwalks
      (Widened.executes setup h.createdAt level) statements
      (fun other hother heq => hname (heq ▸ hother)) 0
  have hinner : Follows (Widened s.journal t.journal name value 0) (fun _ _ _ => False)
      (hoist statements >>= fun _ => execEach setup (enterAt setup level) statements)
      (hoist statements >>= fun _ => execEach setup (enterAt setup level) statements) :=
    .bind (.modify (fun _ _ hst => { hst with env := hst.env.defineAll _ }) fun _ => rfl)
      fun _ => heach
  obtain ⟨hanswer, hafter⟩ := (hinner.agree _ _ (h.opened name value)).uncut
  exact .of_eq hanswer (h.closed hafter)

/-- A count and a range from zero go round equally often. -/
theorem turns (setup : Setup σ) (level : Nat) {body : Body Statement}
    (hname : name ∉ Variables.ofBody body) (loc : Location) (n : Int64) :
    Follows SameButJournal (fun _ _ _ => False)
      (countTurns setup loc (Run.execBody setup (enterAt setup level) body) n.toInt.toNat)
      (rangeTurns setup loc name (Run.execBody setup (enterAt setup level) body)
        (progression 0 n 1)) := by
  rw [rangeTurns_progression, strides_zero_one, countTurns]
  exact .forM (fun k => .bind (beginIteration setup loc k _ _) fun _ =>
    execBody setup level hname _) _

/-- A count and a range from zero, as they are written. -/
theorem repeats (setup : Setup σ) (level : Nat) {body : Body Statement}
    (hname : name ∉ Variables.ofBody body) (count : Expr) (loc start : Location) {s : State σ}
    (hint : ∀ value, (eval setup count s).1 = .ok value → ∃ n, value = .int n) :
    Agree SameButJournal (fun _ _ _ => False)
      (execStatement setup (enterAt setup level) (.repeatCount count body loc) s)
      (execStatement setup (enterAt setup level)
        (.repeatRange name (.int 0 start) count none body loc) s) := by
  have hsame : evalInt setup "repeat count" count s = evalInt setup "range end" count s := by
    refine bind_congr_at fun value s' hvalue => ?_
    obtain ⟨n, rfl⟩ := hint value (congrArg Prod.fst hvalue)
    rfl
  rw [execStatement_repeatCount, execStatement_repeatRange]
  change Agree _ _ _ ((evalInt setup "range end" count >>= fun last =>
    rangeTurns setup loc name (Run.execBody setup (enterAt setup level) body)
      (progression 0 last 1)) s)
  cases hlast : evalInt setup "range end" count s with
  | mk answer s' =>
    rw [hlast] at hsame
    cases answer with
    | error x =>
      rw [bind_error hsame, bind_error hlast]
      exact .both (refl s')
    | ok n =>
      rw [bind_ok hsame, bind_ok hlast]
      exact (turns setup level hname loc n).agree s' s' (refl s')

end SameButJournal

/-! ## The theorem -/

/-- Loops over counts and ranges go round exactly as often as they say.

The values of a range are those that follow its start in exact steps and lie before its end, in that
order. The loop begins an iteration for each of them and runs its body with the variable at that
value, in a scope of its own, whatever the body has done to the variable before. A count runs its
body so many times, and never if it is negative. Such a loop halts only if the run is cancelled, if
no iteration is left, or where its body halts. And a count is a range from zero with a variable that
the body does not mention: both end alike, in states that differ in what their journals have
published. -/
theorem repeats_iterate_exactly (setup : Setup σ) (level : Nat) :
    (∀ (first last stride : Int64), stride ≠ 0 → ∀ k : Nat,
      (progression first last stride)[k]?.map Int64.toInt =
        if (0 < stride.toInt ∧ first.toInt + k * stride.toInt < last.toInt) ∨
            (stride.toInt < 0 ∧ last.toInt < first.toInt + k * stride.toInt) then
          some (first.toInt + k * stride.toInt)
        else none) ∧
    (∀ name start stop step body loc,
      execStatement setup (enterAt setup level) (.repeatRange name start stop step body loc) = do
        let first ← evalInt setup "range start" start
        let last ← evalInt setup "range end" stop
        let stride ← rangeStep setup step
        if stride = 0 then fail .zeroStep loc
        else
          rangeTurns setup loc name (execBody setup (enterAt setup level) body)
            (progression first last stride)) ∧
    (∀ (env : Env) name value, (env.push.declare name value).get? name = some value) ∧
    (∀ count body loc,
      execStatement setup (enterAt setup level) (.repeatCount count body loc) = do
        let n ← evalInt setup "repeat count" count
        countTurns setup loc (execBody setup (enterAt setup level) body) (max n.toInt 0).toNat) ∧
    (∀ loc name body values s x s',
      rangeTurns setup loc name (execBody setup (enterAt setup level) body) values s =
          (.error x, s') →
        x.kind = .cancelled ∨ setup.options.maxLoopIterations < s'.iterations ∨
          ∃ value ∈ values, ∃ t, t.env.get? name = some (.int value) ∧
            (execBody setup (enterAt setup level) body t).1 = .error x) ∧
    (∀ loc body n s x s',
      countTurns setup loc (execBody setup (enterAt setup level) body) n s = (.error x, s') →
        x.kind = .cancelled ∨ setup.options.maxLoopIterations < s'.iterations ∨
          ∃ t, execBody setup (enterAt setup level) body t = (.error x, s')) ∧
    (∀ name count body loc start s, name ∉ Variables.ofBody body →
      (∀ value, (eval setup count s).1 = .ok value → ∃ n, value = .int n) →
      let counted := execStatement setup (enterAt setup level) (.repeatCount count body loc) s
      let ranged := execStatement setup (enterAt setup level)
        (.repeatRange name (.int 0 start) count none body loc) s
      counted.1 = ranged.1 ∧ { counted.2 with journal := ranged.2.journal } = ranged.2 ∧
        ∀ outcome, reportOf counted.2 outcome = reportOf ranged.2 outcome) := by
  refine ⟨fun first last stride hstride => getElem?_progression first last hstride,
    fun name start stop step body loc =>
      execStatement_repeatRange setup loc name level start stop step body,
    Env.get?_push_declare, fun count body loc => ?_,
    fun loc name body values s x s' => rangeTurns_halts setup loc name,
    fun loc body n s x s' => countTurns_halts setup loc,
    fun name count body loc start s hname hint => ?_⟩
  · rw [execStatement_repeatCount]
    refine bind_congr fun n => ?_
    rw [show (max n.toInt 0).toNat = n.toInt.toNat by omega]
  · obtain ⟨hanswer, hafter⟩ :=
      (SameButJournal.repeats setup level hname count loc start hint).uncut
    exact ⟨hanswer, hafter.others, hafter.reportOf_eq⟩

/-- A range next to the largest integer has one value, though the next sum overflows; a body that
fails halts its loop; and a variable is counted up by a count and by a range alike. -/
theorem repeats_iterate_exactly_counting_up :
    let context : Context Unit :=
      { registry := ⟨Dict.empty, Dict.empty⟩
        probe :=
          { pose := fun world => (.error (.unavailable ""), world)
            blockAt := fun _ world => (.ok none, world)
            findBlock := fun _ _ _ world => (.ok none, world) } }
    let setup : Setup Unit := ⟨context, {}⟩
    let failing : Body Statement := ⟨[.assert (.bool false default) none default], default⟩
    let counting : Body Statement :=
      ⟨[.assign "total" (.binary .add (.ident "total" default) (.int 1 default)) default], default⟩
    let s : State Unit :=
      { State.initial default () with env := Env.empty.declare "total" (.int 0) }
    let fails := execBody setup (enterAt setup 0) failing
    let halted := rangeTurns setup default "i" fails [5] s
    let halted' := countTurns setup default fails 1 s
    let counted :=
      execStatement setup (enterAt setup 0) (.repeatCount (.int 3 default) counting default) s
    let ranged :=
      execStatement setup (enterAt setup 0)
        (.repeatRange "i" (.int 0 default) (.int 3 default) none counting default) s
    (progression 9223372036854775806 9223372036854775807 2)[0]?.map Int64.toInt =
        some 9223372036854775806 ∧
      (progression 9223372036854775806 9223372036854775807 2)[1]?.map Int64.toInt = none ∧
      (∃ t, t.env.get? "i" = some (.int 5) ∧ (fails t).1 = halted.1) ∧
      (∃ t, fails t = halted') ∧
      counted.1 = ranged.1 := by
  intro context setup failing counting s fails halted halted' counted ranged
  obtain ⟨hvalues, -, -, -, hrange, hcount, hagree⟩ := repeats_iterate_exactly setup 0
  have hvalues := hvalues 9223372036854775806 9223372036854775807 2 (by decide)
  have hhalted : halted = (.error (terminate (.assertionFailed none) default [] s), halted.2) := rfl
  have hhalted' : halted' = (.error (terminate (.assertionFailed none) default [] s), halted'.2) :=
    rfl
  obtain ⟨hanswer, -⟩ := hagree "i" (.int 3 default) counting default default s (by decide)
    fun value hvalue => ⟨3, by cases hvalue; rfl⟩
  refine ⟨hvalues 0, hvalues 1, ?_, ?_, hanswer⟩
  · rcases hrange _ _ _ _ _ _ _ hhalted with hkind | hover | ⟨value, hvalue, t, hbound, hbody⟩
    · cases hkind
    · exact absurd hover (by decide)
    · obtain rfl := List.mem_singleton.1 hvalue
      exact ⟨t, hbound, hbody⟩
  · rcases hcount _ _ _ _ _ _ hhalted' with hkind | hover | ⟨t, hbody⟩
    · cases hkind
    · exact absurd hover (by decide)
    · exact ⟨t, hbody⟩

end Run

end BlockScript
