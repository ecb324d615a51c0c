import BlockScript.Run.Execute

/-!
# What subscribers receive

Whatever a journal does while a run goes on is to note one event. A subscriber receives the events
that are noted, in order; what the journal was created with stays.
-/
namespace BlockScript
set_option autoImplicit false

namespace Journal

/-- Keeps, writes down and publishes an event as its kind asks for. -/
def note (journal : Journal) (event : Event) : Journal :=
  match event with
  | .trace _ => publish event journal
  | .step result => publish event (persist event (remember result journal))
  | _ => publish event (persist event journal)

/-- Notes events one after another. -/
def noteAll (journal : Journal) (events : List Event) : Journal := events.foldl note journal

theorem start_eq (journal : Journal) :
    journal.start =
      journal.note (.started journal.runId journal.correlationId journal.actor) := rfl

theorem record_eq (journal : Journal) (result : StepResult) :
    journal.record result = journal.note (.step result) := rfl

theorem trace_eq (journal : Journal) (t : Trace) : journal.trace t = journal.note (.trace t) := rfl

@[simp]
theorem noteAll_nil (journal : Journal) : journal.noteAll [] = journal := rfl

theorem noteAll_append (journal : Journal) (before after : List Event) :
    journal.noteAll (before ++ after) = (journal.noteAll before).noteAll after :=
  List.foldl_append

theorem noteAll_concat (journal : Journal) (events : List Event) (event : Event) :
    journal.noteAll (events ++ [event]) = (journal.noteAll events).note event :=
  noteAll_append journal events [event]

/-! ## What stays -/

theorem note_createdAt (journal : Journal) (event : Event) :
    (journal.note event).createdAt = journal.createdAt := by
  cases event <;> rfl

theorem note_runId (journal : Journal) (event : Event) :
    (journal.note event).runId = journal.runId := by
  cases event <;> rfl

theorem note_correlationId (journal : Journal) (event : Event) :
    (journal.note event).correlationId = journal.correlationId := by
  cases event <;> rfl

theorem noteAll_createdAt (journal : Journal) (events : List Event) :
    (journal.noteAll events).createdAt = journal.createdAt := by
  induction events generalizing journal with
  | nil => rfl
  | cons event rest ih => exact (ih _).trans (note_createdAt journal event)

theorem noteAll_runId (journal : Journal) (events : List Event) :
    (journal.noteAll events).runId = journal.runId := by
  induction events generalizing journal with
  | nil => rfl
  | cons event rest ih => exact (ih _).trans (note_runId journal event)

theorem noteAll_correlationId (journal : Journal) (events : List Event) :
    (journal.noteAll events).correlationId = journal.correlationId := by
  induction events generalizing journal with
  | nil => rfl
  | cons event rest ih => exact (ih _).trans (note_correlationId journal event)

/-! ## What is received -/

/-- Whom an event reaches is told by who is there, under whichever identifier. -/
theorem send?_any (event : Event) (id : Nat) (s : Subscriber) :
    (s.send? event).any (fun s => s.listening ∧ s.id = id) = decide (s.listening ∧ s.id = id) := by
  unfold Subscriber.send?
  split
  · rfl
  · next hgone => exact (decide_eq_false fun h => hgone h.1).symm

theorem listener?_note (journal : Journal) (event : Event) (id : Nat) :
    (journal.note event).listener? id =
      (journal.listener? id).map fun s => { s with received := event :: s.received } := by
  have hall : (journal.note event).subscribers =
      journal.subscribers.filterMap (Subscriber.send? event) := by
    cases event <;> rfl
  unfold listener?
  rw [hall, List.find?_filterMap, funext (send?_any event id)]
  cases h : journal.subscribers.find? fun s => decide (s.listening ∧ s.id = id) with
  | none => rfl
  | some s =>
    have hthere := List.find?_some h
    exact if_pos (of_decide_eq_true hthere).1

/-- Whether somebody listens under an identifier. -/
def listens (journal : Journal) (id : Nat) : Bool := (journal.listener? id).isSome

theorem note_listens (journal : Journal) (event : Event) (id : Nat) :
    (journal.note event).listens id = journal.listens id := by
  unfold listens
  rw [listener?_note, Option.isSome_map]

theorem inbox_of_listener {journal : Journal} {id : Nat} {subscriber : Subscriber}
    (h : journal.listener? id = some subscriber) :
    journal.inbox id = subscriber.received.reverse := by
  unfold inbox
  rw [h]

theorem inbox_note {journal : Journal} {id : Nat} (h : journal.listens id = true) (event : Event) :
    (journal.note event).inbox id = journal.inbox id ++ [event] := by
  obtain ⟨subscriber, hsubscriber⟩ := Option.isSome_iff_exists.1 h
  have hnoted := listener?_note journal event id
  rw [hsubscriber] at hnoted
  rw [inbox_of_listener hnoted, inbox_of_listener hsubscriber]
  exact List.reverse_cons

theorem inbox_noteAll {journal : Journal} {id : Nat} (h : journal.listens id = true)
    (events : List Event) : (journal.noteAll events).inbox id = journal.inbox id ++ events := by
  induction events generalizing journal with
  | nil => exact (List.append_nil _).symm
  | cons event rest ih =>
    change ((journal.note event).noteAll rest).inbox id = _
    rw [ih ((note_listens journal event id).trans h), inbox_note h, List.append_assoc]
    rfl

end Journal

/-- A subscriber of a whole run receives its start, the events that the run has noted, and its
report. -/
theorem Run.inbox_finish {σ : Type} {journal : Journal} {id : Nat}
    (hid : journal.listens id = true) {s : State σ} {events : List Event}
    (hs : s.journal = journal.start.noteAll events) (outcome : Outcome) :
    (finish outcome s).2.journal.inbox id =
      journal.inbox id ++ [.started journal.runId journal.correlationId journal.actor] ++ events ++
        [.finished (finish outcome s).1] := by
  have hfinal : (finish outcome s).2.journal =
      (journal.note (.started journal.runId journal.correlationId journal.actor)).noteAll
        (events ++ [.finished (finish outcome s).1]) := by
    rw [Journal.noteAll_concat, ← Journal.start_eq, ← hs]
    rfl
  rw [hfinal, Journal.inbox_noteAll ((Journal.note_listens ..).trans hid), Journal.inbox_note hid,
    List.append_assoc _ events]

end BlockScript
