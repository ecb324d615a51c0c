import Mathlib.Data.List.DropRight
import BlockScript.Proofs.Report.Journal

/-!
# What a journal delivers and keeps

Receivers come and go while events are published. Whoever stays gets every event that is published
from then on, in order and once, whatever the others do; who is gone is forgotten with the next
event. Of the results the most recent are kept, and the log has all events but traces.
-/
namespace BlockScript
set_option autoImplicit false

theorem Subscriber.of_send?_eq_some {event : Event} {before after : Subscriber}
    (h : before.send? event = some after) :
    before.listening = true ∧ after = { before with received := event :: before.received } := by
  unfold send? at h
  split at h
  · next hlistening =>
    cases h
    exact ⟨hlistening, rfl⟩
  · cases h

namespace Journal

/-- What can be done with a journal. A receiver may look at what it has received, and may go. -/
inductive Action where
  | subscribe
  | leave (id : Nat)
  | drain (id : Nat)
  | start
  | record (result : StepResult)
  | trace (t : Trace)
  | finish (report : RunReport)

/-- The event that an action publishes, if any; a start publishes the opening. -/
def Action.event? (opening : Event) : Action → Option Event
  | .start => some opening
  | .record result => some (.step result)
  | .trace t => some (.trace t)
  | .finish report => some (.finished report)
  | .subscribe => none
  | .leave _ => none
  | .drain _ => none

def Action.result? : Action → Option StepResult
  | .record result => some result
  | _ => none

def published (opening : Event) (actions : List Action) : List Event :=
  actions.filterMap (Action.event? opening)

def recorded (actions : List Action) : List StepResult := actions.filterMap Action.result?

def opening (journal : Journal) : Event :=
  .started journal.runId journal.correlationId journal.actor

def perform (journal : Journal) : Action → Journal
  | .subscribe => journal.subscribe.2
  | .leave id => journal.unsubscribe id
  | .drain id => (journal.drain id).2
  | .start => journal.start
  | .record result => journal.record result
  | .trace t => journal.trace t
  | .finish report => journal.finish report

def performAll (journal : Journal) (actions : List Action) : Journal :=
  actions.foldl perform journal

/-- What a receiver takes out of its inbox by an action. -/
def Action.takes (id : Nat) (journal : Journal) : Action → List Event
  | .drain other => if other = id then journal.inbox id else []
  | _ => []

/-- What a receiver takes out of its inbox while actions are performed. -/
def taken (id : Nat) (journal : Journal) : List Action → List Event
  | [] => []
  | action :: rest => action.takes id journal ++ taken id (journal.perform action) rest

theorem published_cons (opening : Event) (action : Action) (rest : List Action) :
    published opening (action :: rest) =
      (action.event? opening).toList ++ published opening rest := by
  rw [published, List.filterMap_cons]
  cases action.event? opening <;> rfl

/-- Whatever publishes an event notes it. -/
theorem perform_of_event {journal : Journal} {action : Action} {event : Event}
    (h : action.event? journal.opening = some event) :
    journal.perform action = journal.note event := by
  cases action <;> cases h <;> rfl

theorem opening_perform (journal : Journal) (action : Action) :
    (journal.perform action).opening = journal.opening := by
  cases action <;> rfl

theorem opening_performAll (journal : Journal) (actions : List Action) :
    (journal.performAll actions).opening = journal.opening := by
  induction actions generalizing journal with
  | nil => rfl
  | cons action rest ih => exact (ih _).trans (opening_perform journal action)

/-! ## Subscribers -/

/-- A new identifier is greater than all that are in use. -/
def Numbered (journal : Journal) : Prop := ∀ s ∈ journal.subscribers, s.id < journal.nextId

theorem of_listener?_eq_some {journal : Journal} {id : Nat} {s : Subscriber}
    (h : journal.listener? id = some s) : s.listening = true ∧ s.id = id := by
  unfold listener? at h
  have hs := List.find?_some h
  exact of_decide_eq_true hs

theorem listener?_map {journal : Journal} {id : Nat} {change : Subscriber → Subscriber}
    (h : ∀ s : Subscriber, ((change s).listening ∧ (change s).id = id) ↔ s.listening ∧ s.id = id) :
    Journal.listener? { journal with subscribers := journal.subscribers.map change } id =
      (journal.listener? id).map change := by
  unfold listener?
  rw [List.find?_map]
  congr 2
  funext s
  exact decide_eq_decide.2 (h s)

/-- A receiver that goes is no loss to the others. -/
theorem listener?_unsubscribe {journal : Journal} {id other : Nat} (hne : other ≠ id) :
    (journal.unsubscribe other).listener? id = journal.listener? id := by
  refine (listener?_map fun s => ?_).trans ?_
  · split
    · next hid =>
      exact iff_of_false (fun h => Bool.false_ne_true h.1) fun h => hne (hid.symm.trans h.2)
    · exact Iff.rfl
  · cases h : journal.listener? id with
    | none => rfl
    | some s =>
      have hid := (of_listener?_eq_some h).2
      exact congrArg some (if_neg fun hother => hne (hother.symm.trans hid))

theorem listener?_drain (journal : Journal) (id other : Nat) :
    (journal.drain other).2.listener? id = (journal.listener? id).map fun s =>
      if s.id = other then { s with received := [] } else s := by
  refine listener?_map fun s => ?_
  split <;> exact Iff.rfl

theorem listener?_subscribe {journal : Journal} {id : Nat} (h : journal.listens id = true) :
    journal.subscribe.2.listener? id = journal.listener? id := by
  obtain ⟨s, hs⟩ := Option.isSome_iff_exists.1 h
  unfold listener? at hs ⊢
  change List.find? _ (journal.subscribers ++ _) = _
  rw [List.find?_append, hs, Option.some_or]

theorem inbox_congr {journal other : Journal} {id : Nat}
    (h : journal.listener? id = other.listener? id) : journal.inbox id = other.inbox id := by
  unfold inbox
  rw [h]

/-- Every action but its own going leaves a receiver there, with the event that was published. -/
theorem perform_delivers {journal : Journal} {id : Nat} (h : journal.listens id = true)
    {action : Action} (hstays : action ≠ .leave id) :
    (journal.perform action).listens id = true ∧
      action.takes id journal ++ (journal.perform action).inbox id =
        journal.inbox id ++ (action.event? journal.opening).toList := by
  cases hevent : action.event? journal.opening with
  | some event =>
    have hnothing : action.takes id journal = [] := by cases action <;> first | rfl | cases hevent
    rw [perform_of_event hevent, hnothing]
    exact ⟨(note_listens journal event id).trans h, inbox_note h event⟩
  | none =>
    rw [Option.toList_none, List.append_nil]
    cases action with
    | subscribe =>
      have hsame := listener?_subscribe h
      exact ⟨(congrArg Option.isSome hsame).trans h, inbox_congr hsame⟩
    | leave other =>
      have hother : other ≠ id := fun hid => hstays (congrArg Action.leave hid)
      have hsame : (journal.unsubscribe other).listener? id = journal.listener? id :=
        listener?_unsubscribe hother
      exact ⟨(congrArg Option.isSome hsame).trans h, inbox_congr hsame⟩
    | drain other =>
      obtain ⟨s, hs⟩ := Option.isSome_iff_exists.1 h
      have hdrained := listener?_drain journal id other
      rw [hs, Option.map_some] at hdrained
      refine ⟨congrArg Option.isSome hdrained, ?_⟩
      change (if other = id then journal.inbox id else []) ++ (journal.drain other).2.inbox id = _
      rw [inbox_of_listener hdrained, inbox_of_listener hs, (of_listener?_eq_some hs).2]
      by_cases hid : other = id
      · rw [if_pos hid, if_pos hid.symm]
        exact List.append_nil _
      · rw [if_neg hid, if_neg (Ne.symm hid)]
        exact List.nil_append _
    | _ => cases hevent

/-- What a receiver has taken and what waits for it are the events that have been published. -/
theorem performAll_delivers {journal : Journal} {id : Nat} (h : journal.listens id = true)
    {actions : List Action} (hstays : .leave id ∉ actions) :
    (journal.performAll actions).listens id = true ∧
      taken id journal actions ++ (journal.performAll actions).inbox id =
        journal.inbox id ++ published journal.opening actions := by
  induction actions generalizing journal with
  | nil => exact ⟨h, (List.append_nil _).symm⟩
  | cons action rest ih =>
    obtain ⟨hfirst, hrest⟩ := not_or.1 (List.mem_cons.not.1 hstays)
    obtain ⟨hlistens, hstep⟩ := perform_delivers h (Ne.symm hfirst)
    obtain ⟨hfinal, hothers⟩ := ih hlistens hrest
    refine ⟨hfinal, ?_⟩
    calc taken id journal (action :: rest) ++ (journal.performAll (action :: rest)).inbox id
      _ = action.takes id journal ++ (taken id (journal.perform action) rest ++
            ((journal.perform action).performAll rest).inbox id) := List.append_assoc ..
      _ = (action.takes id journal ++ (journal.perform action).inbox id) ++
            published journal.opening rest := by
          rw [hothers, opening_perform, List.append_assoc]
      _ = journal.inbox id ++ published journal.opening (action :: rest) := by
          rw [hstep, published_cons, List.append_assoc]

/-! ## New subscribers -/

theorem numbered_note {journal : Journal} (h : journal.Numbered) (event : Event) :
    (journal.note event).Numbered := by
  have hall : (journal.note event).subscribers =
        journal.subscribers.filterMap (Subscriber.send? event) ∧
      (journal.note event).nextId = journal.nextId := by
    cases event <;> exact ⟨rfl, rfl⟩
  intro s hs
  rw [hall.1] at hs
  rw [hall.2]
  obtain ⟨old, hold, hsent⟩ := List.mem_filterMap.1 hs
  obtain ⟨-, rfl⟩ := Subscriber.of_send?_eq_some hsent
  exact h old hold

theorem numbered_perform {journal : Journal} (h : journal.Numbered) (action : Action) :
    (journal.perform action).Numbered := by
  cases hevent : action.event? journal.opening with
  | some event =>
    rw [perform_of_event hevent]
    exact numbered_note h event
  | none =>
    cases action with
    | subscribe =>
      intro s hs
      rcases List.mem_append.1 hs with hold | hnew
      · exact Nat.lt_succ_of_lt (h s hold)
      · rw [List.mem_singleton.1 hnew]
        exact Nat.lt_succ_self _
    | leave id =>
      intro s hs
      obtain ⟨old, hold, rfl⟩ := List.mem_map.1 hs
      split <;> exact h old hold
    | drain id =>
      intro s hs
      obtain ⟨old, hold, rfl⟩ := List.mem_map.1 hs
      split <;> exact h old hold
    | _ => cases hevent

theorem numbered_performAll {journal : Journal} (h : journal.Numbered) (actions : List Action) :
    (journal.performAll actions).Numbered := by
  induction actions generalizing journal with
  | nil => exact h
  | cons action rest ih => exact ih (numbered_perform h action)

theorem listener?_subscribe_self {journal : Journal} (h : journal.Numbered) :
    journal.subscribe.2.listener? journal.nextId = some ⟨journal.nextId, true, []⟩ := by
  have hnone : journal.listener? journal.nextId = none :=
    List.find?_eq_none.2 fun s hs hfound =>
      Nat.ne_of_lt (h s hs) (of_decide_eq_true hfound).2
  unfold listener? at hnone ⊢
  change List.find? _ (journal.subscribers ++ _) = _
  rw [List.find?_append, hnone, Option.none_or]
  exact List.find?_cons_of_pos (decide_eq_true ⟨rfl, rfl⟩)

/-! ## What is kept -/

theorem buffer_perform (journal : Journal) (action : Action) :
    (journal.perform action).buffer = match action.result? with
      | some result => (result :: journal.buffer).take capacity
      | none => journal.buffer := by
  cases action <;> rfl

/-- A journal that is new keeps the most recent results, newest first. -/
theorem buffer_performAll {journal : Journal} (h : journal.buffer = []) (actions : List Action) :
    (journal.performAll actions).buffer = (recorded actions).reverse.take capacity := by
  induction actions using List.reverseRecOn with
  | nil => exact h
  | append_singleton actions action ih =>
    have hperform : journal.performAll (actions ++ [action]) =
        (journal.performAll actions).perform action := List.foldl_append
    have hrecorded : recorded (actions ++ [action]) =
        recorded actions ++ [action].filterMap Action.result? := List.filterMap_append
    rw [hperform, buffer_perform, ih, hrecorded, List.reverse_append]
    cases hresult : action.result? with
    | none =>
      rw [List.filterMap_cons_none hresult]
      rfl
    | some result =>
      -- At full capacity the oldest of those that were kept gives way.
      rw [List.filterMap_cons_some hresult]
      change (result :: (recorded actions).reverse.take (999 + 1)).take (999 + 1) =
        (result :: (recorded actions).reverse).take (999 + 1)
      rw [List.take_succ_cons, List.take_succ_cons, List.take_take]
      rfl

theorem results_performAll {journal : Journal} (h : journal.buffer = []) (actions : List Action) :
    (journal.performAll actions).results = (recorded actions).rtake capacity := by
  rw [results, buffer_performAll h, List.rtake_eq_reverse_take_reverse]

/-- What of some events is written down. -/
def persistent (events : List Event) : List Event := events.filter fun event => !event.isTrace

theorem log_perform (journal : Journal) (action : Action) :
    (journal.perform action).log = journal.log.map fun lines =>
      (persistent (action.event? journal.opening).toList).reverse ++ lines := by
  have hkept : journal.log = journal.log.map fun lines => [] ++ lines := Option.map_id'.symm
  cases action <;> first | rfl | exact hkept

theorem persistent_append (events later : List Event) :
    persistent (events ++ later) = persistent events ++ persistent later := List.filter_append ..

theorem log_performAll (journal : Journal) (actions : List Action) :
    (journal.performAll actions).log = journal.log.map fun lines =>
      (persistent (published journal.opening actions)).reverse ++ lines := by
  induction actions generalizing journal with
  | nil => exact Option.map_id'.symm
  | cons action rest ih =>
    have hlog := ih (journal.perform action)
    rw [log_perform, opening_perform, Option.map_map] at hlog
    rw [published_cons, persistent_append, List.reverse_append]
    refine hlog.trans (Option.map_congr fun lines _ => ?_)
    exact (List.append_assoc ..).symm

theorem logged_performAll {journal : Journal} (h : journal.log = some []) (actions : List Action) :
    (journal.performAll actions).logged = persistent (published journal.opening actions) := by
  rw [logged, log_performAll, h, Option.map_some, Option.getD_some, List.append_nil,
    List.reverse_reverse]

theorem recent_rtake {journal : Journal} {kept : List StepResult} {n : Nat}
    (h : journal.results = kept.rtake n) (k : Nat) : journal.recent k = kept.rtake (min k n) := by
  change journal.results.rtake k = _
  rw [h]
  simp only [List.rtake_eq_reverse_take_reverse, List.reverse_reverse, List.take_take]

/-- Whatever is done with a journal, and in whichever order, a receiver that has not gone is there
and has been sent just the events that have been published since it subscribed; the results that
are kept are the last thousand, and the recent ones are the last of these; the log, if there is one,
has all events but traces. Receivers that are gone are forgotten with the next event. -/
theorem receivers_miss_nothing (runId : RunId) (createdAt : Timestamp) (actor : String)
    (correlationId : Option String) (logs : Bool) (actions : List Action) :
    let journal := create runId createdAt actor correlationId logs
    let final := journal.performAll actions
    let events := published (.started runId correlationId actor)
    let count := (recorded actions).length
    (∀ before later, actions = before ++ .subscribe :: later →
      let subscription := (journal.performAll before).subscribe
      .leave subscription.1 ∉ later →
        final.listens subscription.1 = true ∧
        taken subscription.1 subscription.2 later ++ final.inbox subscription.1 = events later) ∧
    final.results = (recorded actions).rtake (min count 1000) ∧
    (∀ k, final.recent k = (recorded actions).rtake (min k (min count 1000))) ∧
    final.logged = (if logs then (events actions).filter fun event => !event.isTrace else []) ∧
    ∀ event, ∀ s ∈ (final.publish event).subscribers, s.listening = true := by
  intro journal final events count
  have hresults : final.results = (recorded actions).rtake (min count 1000) := by
    rw [results_performAll rfl, List.rtake_eq_reverse_take_reverse, List.take_eq_take_min,
      List.length_reverse, ← List.rtake_eq_reverse_take_reverse, Nat.min_comm]
    rfl
  refine ⟨fun before later hsplit => ?_, hresults, recent_rtake hresults, ?_, fun event s hs => ?_⟩
  · intro subscription hstays
    have hnumbered : (journal.performAll before).Numbered :=
      numbered_performAll (fun s hs => absurd hs List.not_mem_nil) before
    have hnew := listener?_subscribe_self hnumbered
    have hfinal : final = subscription.2.performAll later := by
      change journal.performAll actions = _
      rw [hsplit]
      exact List.foldl_append
    have hopening : subscription.2.opening = .started runId correlationId actor :=
      opening_performAll journal before
    obtain ⟨hlistens, hsent⟩ := performAll_delivers (congrArg Option.isSome hnew) hstays
    rw [inbox_of_listener hnew, hopening] at hsent
    exact ⟨hfinal ▸ hlistens, hfinal ▸ hsent⟩
  · cases logs with
    | true => exact logged_performAll rfl actions
    | false =>
      rw [logged, log_performAll]
      rfl
  · obtain ⟨old, -, hsent⟩ := List.mem_filterMap.1 hs
    obtain ⟨hlistening, rfl⟩ := Subscriber.of_send?_eq_some hsent
    exact hlistening

end Journal

end BlockScript
