import BlockScript.Proofs.Run.Observation

/-!
# The books of a run

The counter of commands, the results, the published steps, the calls of handlers and the answers of
`last_ok` tell one story. The invariant is about the watched run, where all of these can be seen; it
is carried over to every run because watching changes nothing.
-/
namespace BlockScript
set_option autoImplicit false

namespace Event

def step? : Event → Option StepResult
  | step result => some result
  | _ => none

/-- The results among events. -/
def steps (events : List Event) : List StepResult := events.filterMap step?

/-- An event between the start of a run and its end. -/
def isInner : Event → Bool
  | step _ => true
  | trace _ => true
  | _ => false

theorem steps_append (before after : List Event) :
    steps (before ++ after) = steps before ++ steps after :=
  List.filterMap_append

end Event

namespace Run

variable {σ : Type}

/-- What `last_ok` has to say after these results. -/
def verdict (results : List StepResult) : Bool :=
  (results.getLast?.map StepResult.isSuccess).getD true

/-- Every answer of `last_ok` that was traced fits the results before it. -/
def HonestLastOk (events : List Event) : Prop :=
  ∀ before t after value, events = before ++ .trace t :: after →
    t.kind = .predicateEvaluated lastOkName value → value = verdict (Event.steps before)

/-- The contacts are those of the results, result by result. -/
def Accounts (results : List StepResult) (contacts : List Contact) : Prop :=
  ∃ parts : List (StepResult × List Contact),
    parts.map Prod.fst = results ∧ (∀ part ∈ parts, Footprint part.1 part.2) ∧
      parts.flatMap Prod.snd = contacts

/-! ## One step -/

theorem HonestLastOk.concat {events : List Event} (h : HonestLastOk events) {event : Event}
    (hevent : ∀ t value, event = .trace t → t.kind = .predicateEvaluated lastOkName value →
      value = verdict (Event.steps events)) : HonestLastOk (events ++ [event]) := by
  intro before t after value hsplit hkind
  rcases List.eq_nil_or_concat after with rfl | ⟨after, last, rfl⟩
  · obtain ⟨rfl, hlast⟩ := List.append_inj' hsplit rfl
    exact hevent t value (List.cons.inj hlast).1 hkind
  · have hsplit' : events ++ [event] = (before ++ .trace t :: after) ++ [last] := by
      rw [hsplit, List.concat_eq_append, List.append_assoc]
      rfl
    obtain ⟨hevents, -⟩ := List.append_inj' hsplit' rfl
    exact h before t after value hevents hkind

theorem Accounts.concat {results : List StepResult} {contacts footprint : List Contact}
    (h : Accounts results contacts) {result : StepResult} (hresult : Footprint result footprint) :
    Accounts (results ++ [result]) (contacts ++ footprint) := by
  obtain ⟨parts, hfst, hall, hsnd⟩ := h
  refine ⟨parts ++ [(result, footprint)], ?_, ?_, ?_⟩
  · rw [List.map_append, hfst]
    rfl
  · intro part hpart
    rcases List.mem_append.1 hpart with hold | hnew
    · exact hall part hold
    · rw [List.mem_singleton.1 hnew]
      exact hresult
  · rw [List.flatMap_append, hsnd, List.flatMap_singleton]

theorem Footprint.all_isCommand {result : StepResult} {footprint : List Contact}
    (h : Footprint result footprint) : footprint.filter Contact.isCommand = footprint := by
  cases h <;> rfl

/-- The books after some events, as the watched run shows them. -/
structure Books (limit : Nat) (events : List Event) (p : Outside (σ × List Contact)) : Prop where
  steps : Event.steps events = p.results.reverse
  counted : p.results.length = p.ops
  within : p.ops ≤ limit
  numbered : ∀ (i : Nat) (result : StepResult), p.results.reverse[i]? = some result →
    result.opIndex = i
  lastOk : p.lastOk.getD true = verdict p.results.reverse
  inner : ∀ event ∈ events, event.isInner = true
  honest : HonestLastOk events
  accounts : Accounts p.results.reverse (p.world.2.reverse.filter Contact.isCommand)

namespace Books

variable {limit : Nat} {events : List Event} {p : Outside (σ × List Contact)}

theorem asked (h : Books limit events p) (world : σ) {contact : Contact}
    (hcontact : contact.isCommand = false) :
    Books limit events { p with world := (world, contact :: p.world.2) } := by
  refine { h with accounts := ?_ }
  have hkept : (contact :: p.world.2).reverse.filter Contact.isCommand =
      p.world.2.reverse.filter Contact.isCommand := by
    rw [List.reverse_cons, List.filter_append, List.filter_cons_of_neg (by simp [hcontact]),
      List.filter_nil, List.append_nil]
  change Accounts p.results.reverse ((contact :: p.world.2).reverse.filter Contact.isCommand)
  rw [hkept]
  exact h.accounts

theorem traced (h : Books limit events p) (t : Trace)
    (ht : ∀ value, t.kind = .predicateEvaluated lastOkName value → value = p.lastOk.getD true) :
    Books limit (events ++ [.trace t]) { p with journal := p.journal.trace t } := by
  refine { h with steps := ?_, inner := ?_, honest := ?_ }
  · rw [Event.steps_append, h.steps]
    exact List.append_nil _
  · intro event hevent
    rcases List.mem_append.1 hevent with hold | hnew
    · exact h.inner event hold
    · rw [List.mem_singleton.1 hnew]
      rfl
  · refine h.honest.concat ?_
    rintro t' value ⟨⟩ hkind
    rw [ht value hkind, h.lastOk, h.steps]

theorem concluded (h : Books limit events p) (hops : p.ops < limit) (op : String)
    {result : StepResult} (hindex : result.opIndex = p.ops) (world : σ) {footprint : List Contact}
    (hfootprint : Footprint result footprint) :
    Books limit (events ++ [.step result])
      (p.concluded op result (world, footprint.reverse ++ p.world.2)) := by
  have hresults : (p.concluded op result (world, footprint.reverse ++ p.world.2)).results.reverse =
      p.results.reverse ++ [result] := List.reverse_cons
  refine
    { steps := ?_, counted := congrArg (· + 1) h.counted, within := hops, numbered := ?_,
      lastOk := ?_, inner := ?_, honest := ?_, accounts := ?_ }
  · rw [hresults, Event.steps_append, h.steps]
    rfl
  · intro i r hr
    rw [hresults] at hr
    rcases Nat.lt_or_ge i p.results.reverse.length with hlt | hge
    · rw [List.getElem?_append_left hlt] at hr
      exact h.numbered i r hr
    · rw [List.getElem?_append_right hge] at hr
      have hi : i = p.results.reverse.length := by
        have hbound := (List.getElem?_eq_some_iff.1 hr).1
        rw [List.length_singleton] at hbound
        omega
      subst hi
      rw [Nat.sub_self] at hr
      cases hr
      rw [hindex, List.length_reverse, h.counted]
  · rw [hresults]
    unfold verdict
    rw [List.getLast?_concat]
    rfl
  · intro event hevent
    rcases List.mem_append.1 hevent with hold | hnew
    · exact h.inner event hold
    · rw [List.mem_singleton.1 hnew]
      rfl
  · exact h.honest.concat fun t value heq => nomatch heq
  · rw [hresults]
    have hcontacts : (footprint.reverse ++ p.world.2).reverse.filter Contact.isCommand =
        p.world.2.reverse.filter Contact.isCommand ++ footprint := by
      rw [List.reverse_append, List.reverse_reverse, List.filter_append, hfootprint.all_isCommand]
    change Accounts _ ((footprint.reverse ++ p.world.2).reverse.filter Contact.isCommand)
    rw [hcontacts]
    exact h.accounts.concat hfootprint

theorem atStart (limit : Nat) (journal : Journal) (world : σ) :
    Books limit [] (start journal (world, ([] : List Contact))).outside where
  steps := rfl
  counted := rfl
  within := Nat.zero_le _
  numbered := fun _ _ h => nomatch h
  lastOk := rfl
  inner := fun _ h => nomatch h
  honest := fun before _ _ _ h => by cases before <;> cases h
  accounts := ⟨[], rfl, fun _ h => absurd h List.not_mem_nil, rfl⟩

/-- No step of a run upsets its books. -/
theorem keeps (setup : Setup σ) : Keeps setup (Books setup.options.opLimit) where
  asked := fun _ _ world _ hcontact h => h.asked world hcontact
  traced := fun events p t hkind h => by
    refine h.traced t fun value hvalue => ?_
    rw [hvalue] at hkind
    rcases hkind with hflow | ⟨name, answer, hname, hsame⟩ | hsame | ⟨op, hsame⟩
    · cases hflow
    · cases hsame
      exact absurd rfl hname
    · cases hsame
      rfl
    · cases hsame
  concluded := fun _ _ op _ world _ hops hindex _ hfootprint h =>
    h.concluded hops op hindex world hfootprint

end Books

/-! ## Whole runs -/

theorem steps_published (options : RunOptions) (events : List Event) :
    Event.steps (published options events) = Event.steps events := by
  unfold published
  split
  · rfl
  · unfold Event.steps
    rw [List.filterMap_filter]
    congr 1
    funext event
    cases event <;> rfl

theorem body_of_terminated {setup : Setup σ} {program : Program} {journal : Journal} {world : σ}
    {x : Termination}
    (h : (Run.program setup program journal world).1.outcome = .terminated x) :
    ∃ s, body setup program (start journal world) = (.error x, s) ∧
      (Run.program setup program journal world).1.results = s.results.reverse := by
  cases hbody : body setup program (start journal world) with
  | mk answer s =>
    dsimp only [Run.program] at h ⊢
    rw [hbody] at h ⊢
    cases answer with
    | ok _ => cases h
    | error y =>
      cases h
      exact ⟨s, rfl, rfl⟩

/-- What `last_ok` answers in a watched run is what is traced of it. -/
theorem eval_lastOk_watched (setup : Setup σ) (loc : Location) (s : State (σ × List Contact)) :
    eval setup.watched (.predicate lastOkName [] loc) s =
      (.ok (.bool (s.lastOk.getD true)),
        { s with
          journal := s.journal.trace
            ⟨s.journal.createdAt, loc, .predicateEvaluated lastOkName (s.lastOk.getD true)⟩ }) := by
  rw [eval, if_pos rfl]
  exact (bind_ok (lastOk_eq setup.watched loc s)).trans rfl

/-- The books of every run are in order. Results are numbered from zero, their number is the count
of commands, and the count is within the limit. A subscriber receives the start of the run, then
the results with the traces around them, and at last the report. Handlers are called in the order
of the results, each as its result says and never without one. Whenever `last_ok` is evaluated, its
answer is traced, and it is that of the latest result. -/
theorem books_in_order (setup : Setup σ) (program : Program) (journal : Journal) (world : σ) :
    let run := Run.program setup program journal world
    let seen := Run.program setup.watched program journal (world, [])
    (run.1.results.length = run.1.ops ∧ run.1.ops ≤ setup.options.opLimit) ∧
    (∀ (i : Nat) (result : StepResult), run.1.results[i]? = some result → result.opIndex = i) ∧
    (seen.1 = run.1 ∧ seen.2.world.1 = run.2.world) ∧
    Accounts run.1.results (seen.2.world.2.reverse.filter Contact.isCommand) ∧
    (∀ id, journal.listens id = true → ∃ events,
      run.2.journal.inbox id =
        journal.inbox id ++ [.started journal.runId journal.correlationId journal.actor] ++
          published setup.options events ++ [.finished run.1] ∧
      seen.2.journal.inbox id =
        journal.inbox id ++ [.started journal.runId journal.correlationId journal.actor] ++
          events ++ [.finished run.1] ∧
      Event.steps (published setup.options events) = run.1.results ∧
      (∀ event ∈ events, event.isInner = true) ∧ HonestLastOk events) ∧
    (∀ (loc : Location) (s : State (σ × List Contact)), ∃ value,
      eval setup.watched (.predicate lastOkName [] loc) s =
        (.ok (.bool value),
          { s with
            journal := s.journal.trace
              ⟨s.journal.createdAt, loc, .predicateEvaluated lastOkName value⟩ })) := by
  have hstart := Books.atStart setup.options.opLimit journal world
  obtain ⟨answer, s, t, hrun, hseen, events, hmirrors, hbooks⟩ :=
    watched_body journal (Books.keeps setup) program world hstart
  have hresults : s.results = t.results := hmirrors.results
  have hops : s.ops = t.ops := hmirrors.ops
  have hs : s.journal = journal.start.noteAll (published setup.options events) := hmirrors.journal
  have ht : t.journal = journal.start.noteAll events := hmirrors.heard
  have hreport : reportOf t (outcomeOf answer) = reportOf s (outcomeOf answer) := by
    unfold reportOf
    rw [hresults, hops, hs, ht, Journal.noteAll_runId, Journal.noteAll_runId,
      Journal.noteAll_correlationId, Journal.noteAll_correlationId]
  dsimp only [Run.program]
  rw [hrun, hseen]
  refine ⟨⟨?_, ?_⟩, ?_, ⟨hreport, hmirrors.world.symm⟩, ?_, ?_,
    fun loc s => ⟨_, eval_lastOk_watched setup loc s⟩⟩
  · change s.results.reverse.length = s.ops
    rw [List.length_reverse, hresults, hops]
    exact hbooks.counted
  · change s.ops ≤ setup.options.opLimit
    rw [hops]
    exact hbooks.within
  · change ∀ (i : Nat) (result : StepResult), s.results.reverse[i]? = some result → _
    rw [hresults]
    exact hbooks.numbered
  · change Accounts s.results.reverse (t.world.2.reverse.filter Contact.isCommand)
    rw [hresults]
    exact hbooks.accounts
  · intro id hid
    refine ⟨events, inbox_finish hid hs _, ?_, ?_, hbooks.inner, hbooks.honest⟩
    · have hinbox := inbox_finish hid ht (outcomeOf answer)
      rwa [show (finish (outcomeOf answer) t).1 = (finish (outcomeOf answer) s).1 from hreport]
        at hinbox
    · change Event.steps (published setup.options events) = s.results.reverse
      rw [steps_published, hbooks.steps, hresults]
      rfl

end Run

end BlockScript
