import BlockScript.Proofs.Report.Journal
import BlockScript.Proofs.Run.Invariants
import BlockScript.Proofs.Run.Observation

/-!
# The events of a traced run

In a run with traces every command has a beginning and an end. Between the two there is nothing but
predicates in its arguments. Only a command that is given up before it counts has a beginning alone,
and it is the last one of its run. All other traces stand between the commands.
-/
namespace BlockScript
set_option autoImplicit false

namespace TraceKind

def isStart : TraceKind → Bool
  | commandStarted .. => true
  | _ => false

def isJudgement : TraceKind → Bool
  | predicateEvaluated .. => true
  | _ => false

theorem isStart_of_isFlow {kind : TraceKind} (h : kind.isFlow = true) : kind.isStart = false := by
  cases kind <;> first | rfl | cases h

end TraceKind

namespace Run

variable {σ : Type}

/-- The beginning of a command with this number and name: its start, and then predicates only. -/
def Opening (n : Nat) (op : String) (events : List Event) : Prop :=
  ∃ (started : Trace) (judged : List Trace), events = .trace started :: judged.map .trace ∧
    started.kind = .commandStarted n op ∧ ∀ t ∈ judged, t.kind.isJudgement = true

/-- Traces other than starts of commands, and commands from beginning to result, which are numbered
in order; so many commands in all. -/
inductive Bracketed : Nat → List Event → Prop where
  | nil : Bracketed 0 []
  | trace {n : Nat} {events : List Event} (t : Trace) (h : Bracketed n events)
    (ht : t.kind.isStart = false) : Bracketed n (events ++ [.trace t])
  | command {n : Nat} {events beginning : List Event} (result : StepResult) (h : Bracketed n events)
    (hbeginning : Opening n result.op beginning) (hindex : result.opIndex = n) :
    Bracketed (n + 1) (events ++ beginning ++ [.step result])

/-- Whole commands, and then the beginning of one more. -/
def Begun (op : String) (n : Nat) (events : List Event) : Prop :=
  ∃ items beginning, events = items ++ beginning ∧ Bracketed n items ∧ Opening n op beginning

/-- The calls that are entered are no deeper than the limit. -/
def Shallow (limit : Nat) (events : List Event) : Prop :=
  ∀ t, .trace t ∈ events → t.kind.Within limit

/-- The journal has noted events of which `Part` holds, with the number of commands so far. -/
def Tells (limit : Nat) (journal : Journal) (Part : Nat → List Event → Prop) (o : Outside σ) :
    Prop :=
  ∃ events, o.journal = journal.noteAll events ∧ Part o.ops events ∧ Shallow limit events

/-- The run has been given up in the middle of a command. -/
def Dangling (limit : Nat) (journal : Journal) (_ : Termination) (o : Outside σ) : Prop :=
  ∃ op, Tells limit journal (Begun op) o

/-! ## Events -/

theorem Opening.start {t : Trace} {n : Nat} {op : String} (h : t.kind = .commandStarted n op) :
    Opening n op [.trace t] :=
  ⟨t, [], rfl, h, fun _ hmem => absurd hmem List.not_mem_nil⟩

theorem Opening.judge {n : Nat} {op : String} {events : List Event} (h : Opening n op events)
    {t : Trace} (ht : t.kind.isJudgement = true) : Opening n op (events ++ [.trace t]) := by
  obtain ⟨started, judged, rfl, hstarted, hjudged⟩ := h
  refine ⟨started, judged ++ [t], ?_, hstarted, ?_⟩
  · simp
  · intro u hu
    rcases List.mem_append.1 hu with hold | hnew
    · exact hjudged u hold
    · rw [List.mem_singleton.1 hnew]
      exact ht

theorem Begun.judge {op : String} {n : Nat} {events : List Event} (h : Begun op n events)
    {t : Trace} (ht : t.kind.isJudgement = true) : Begun op n (events ++ [.trace t]) := by
  obtain ⟨items, beginning, rfl, hitems, hbeginning⟩ := h
  exact ⟨items, beginning ++ [.trace t], List.append_assoc .., hitems, hbeginning.judge ht⟩

theorem Begun.settled {op : String} {n : Nat} {events : List Event} (h : Begun op n events)
    {result : StepResult} (hindex : result.opIndex = n) (hop : result.op = op) :
    Bracketed (n + 1) (events ++ [.step result]) := by
  obtain ⟨items, beginning, rfl, hitems, hbeginning⟩ := h
  subst hop
  exact .command result hitems hbeginning hindex

theorem Shallow.trace {limit : Nat} {events : List Event} (h : Shallow limit events) {t : Trace}
    (ht : t.kind.Within limit) : Shallow limit (events ++ [.trace t]) := by
  intro u hu
  rcases List.mem_append.1 hu with hold | hnew
  · exact h u hold
  · cases List.mem_singleton.1 hnew
    exact ht

theorem Shallow.step {limit : Nat} {events : List Event} (h : Shallow limit events)
    (result : StepResult) : Shallow limit (events ++ [.step result]) := by
  intro u hu
  rcases List.mem_append.1 hu with hold | hnew
  · exact h u hold
  · cases List.mem_singleton.1 hnew

/-! ## Steps -/

section

variable {setup : Setup σ} {journal : Journal} {limit : Nat} {Part Next : Nat → List Event → Prop}

theorem Tells.traced (htrace : setup.options.trace = true) {o : Outside σ}
    (h : Tells limit journal Part o) (loc : Location) {kind : TraceKind} (hkind : kind.Within limit)
    (hpart : ∀ events t, t.kind = kind → Part o.ops events → Next o.ops (events ++ [.trace t])) :
    Tells limit journal Next (o.traced setup loc kind) := by
  obtain ⟨events, hjournal, hevents, hshallow⟩ := h
  unfold Outside.traced
  rw [if_pos htrace]
  refine ⟨events ++ [.trace ⟨o.journal.createdAt, loc, kind⟩], ?_, hpart _ _ rfl hevents,
    hshallow.trace hkind⟩
  rw [Journal.noteAll_concat, ← hjournal, Journal.trace_eq]

theorem Tells.concluded {o : Outside σ} {op : String} (h : Tells limit journal (Begun op) o)
    {result : StepResult} (hindex : result.opIndex = o.ops) (hop : result.op = op) (world : σ) :
    Tells limit journal Bracketed (o.concluded op result world) := by
  obtain ⟨events, hjournal, hevents, hshallow⟩ := h
  refine ⟨events ++ [Event.step result], ?_, hevents.settled hindex hop, hshallow.step result⟩
  rw [Journal.noteAll_concat, ← hjournal]
  rfl

/-- While a command has begun, evaluation tells of predicates only. -/
theorem sighted_begun (htrace : setup.options.trace = true) (op : String) (n : Nat) :
    Sighted setup fun o => Tells limit journal (Begun op) o ∧ o.ops = n where
  pose := fun _ h => h
  search := fun _ _ _ h => h
  waypoint := fun _ _ h => h
  predicate := fun _ _ _ _ _ h => h
  told := fun o loc name value h => by
    refine ⟨h.1.traced htrace loc trivial fun events t ht hevents => ?_, ?_⟩
    · exact hevents.judge (by rw [ht]; rfl)
    · rw [Outside.traced_ops]
      exact h.2

theorem bracketed_dispatch (htrace : setup.options.trace = true) (call : CommandCall)
    (handler : CommandHandler σ) :
    Keeping (Tells limit journal Bracketed) (Dangling limit journal)
      (dispatch setup call handler) := by
  intro s hs
  cases hanswer : (setup.context.cancelled s.world).1 with
  | true => exact .of_error (dispatch_stopped hanswer call handler) (.inl hs)
  | false =>
    apply dispatch_ends (Tells limit journal Bracketed)
      (fun o => Tells limit journal Bracketed o ∧ o.ops = s.ops)
      (fun o => Tells limit journal (Begun call.name) o ∧ o.ops = s.ops) (Dangling limit journal)
      hanswer
    · exact ⟨hs, rfl⟩
    · exact fun o ho => ho.1
    · intro o ho
      refine ⟨ho.1.traced htrace call.loc trivial fun events t ht hevents => ?_,
        (Outside.traced_ops ..).trans ho.2⟩
      have hstart : Opening o.ops call.name [.trace t] := .start (ho.2.symm ▸ ht)
      exact ⟨events, [.trace t], rfl, hevents, hstart⟩
    · exact sighted_begun htrace call.name s.ops
    · exact fun _ ho => ho
    · exact fun _ ho => ho
    · exact fun _ o ho => .inr ⟨call.name, ho.1⟩
    · intro o prepared ho
      obtain ⟨hindex, hop⟩ :=
        settle_of_call call handler s.ops o.journal.createdAt prepared o.world
      exact ho.1.concluded (hindex.trans ho.2.symm) hop _

theorem guarded_bracketed (htrace : setup.options.trace = true) (journal : Journal) :
    Guarded setup (Tells setup.options.maxCallDepth journal Bracketed)
      (Dangling setup.options.maxCallDepth journal) where
  pose := fun _ h => h
  search := fun _ _ _ h => h
  waypoint := fun _ _ h => h
  predicate := fun _ _ _ _ _ h => h
  told := fun o loc name value h => by
    refine h.traced htrace loc trivial fun events t ht hevents => ?_
    exact .trace t hevents (by rw [ht]; rfl)
  function := fun _ _ h => h
  flow := fun o loc kind hflow hwithin h => by
    apply h.traced htrace loc hwithin
    intro events t ht hevents
    exact .trace t hevents (ht ▸ TraceKind.isStart_of_isFlow hflow)
  check := checkCancelled_keeping fun _ h => h
  dispatch := fun call handler _ => bracketed_dispatch htrace call handler

end

/-! ## Whole runs -/

/-- The traced events of a run bracket every command. A subscriber receives the start of the run;
then items, each a trace other than the start of a command or a command from its start to its
result, numbered from zero and with predicates only in between; then, if the run was terminated,
perhaps the beginning of one more command; and at last the report. Calls that are entered have
depths from one to the limit. -/
theorem traces_bracket_commands (context : Context σ) (options : RunOptions) (program : Program)
    (journal : Journal) (world : σ) :
    let run := Run.program ⟨context, { options with trace := true }⟩ program journal world
    ∀ id, journal.listens id = true → ∃ items dangling,
      run.2.journal.inbox id =
        journal.inbox id ++ [.started journal.runId journal.correlationId journal.actor] ++
          (items ++ dangling) ++ [.finished run.1] ∧
      Bracketed run.1.ops items ∧
      (dangling = [] ∨
        (∃ op, Opening run.1.ops op dangling) ∧ ∃ x, run.1.outcome = .terminated x) ∧
      ∀ t name depth, .trace t ∈ items ++ dangling → t.kind = .macroEntered name depth →
        1 ≤ depth ∧ depth ≤ options.maxCallDepth := by
  intro run id hid
  let setup : Setup σ := ⟨context, { options with trace := true }⟩
  have hguarded : Guarded setup _ _ := guarded_bracketed rfl journal.start
  have hends := hguarded.body program journal world ⟨[], rfl, .nil, fun _ h => nomatch h⟩
  have hdepths : ∀ {events : List Event}, Shallow options.maxCallDepth events →
      ∀ t name depth, .trace t ∈ events → t.kind = .macroEntered name depth →
        1 ≤ depth ∧ depth ≤ options.maxCallDepth := by
    intro events hshallow t name depth ht hkind
    have hwithin := hshallow t ht
    rwa [hkind] at hwithin
  cases hbody : body setup program (start journal world) with
  | mk answer s =>
    have hrun : run = finish (outcomeOf answer) s := by
      change Run.program setup program journal world = _
      rw [Run.program, hbody]
    rw [hrun]
    have hkept : Tells options.maxCallDepth journal.start Bracketed s.outside ∨
        (∃ op, Tells options.maxCallDepth journal.start (Begun op) s.outside) ∧
          ∃ x, outcomeOf answer = .terminated x := by
      cases answer with
      | ok _ => exact .inl (hends.ok () s hbody)
      | error x => exact (hends.error x s hbody).imp_right fun h => ⟨h, x, rfl⟩
    rcases hkept with ⟨events, hjournal, hitems, hshallow⟩ |
      ⟨⟨op, events, hjournal, ⟨items, dangling, rfl, hitems, hdangling⟩, hshallow⟩, hx⟩
    · refine ⟨events, [], ?_, hitems, .inl rfl, ?_⟩
      · rw [List.append_nil]
        exact inbox_finish hid hjournal _
      · rw [List.append_nil]
        exact hdepths hshallow
    · refine ⟨items, dangling, ?_, hitems, .inr ⟨⟨op, hdangling⟩, hx⟩, hdepths hshallow⟩
      exact inbox_finish hid hjournal _

end Run

end BlockScript
