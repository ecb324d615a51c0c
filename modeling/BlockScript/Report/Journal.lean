import BlockScript.Report.Basic
import BlockScript.Store.Files

/-!
# Journals

A journal sends every event to the subscribers it has at that time, keeps the most recent results
and, if it has a log, writes down all events but traces. Subscribers that are gone are forgotten when
the next event is sent.
-/
namespace BlockScript
set_option autoImplicit false

/-- A receiver of events, with those that it has not taken yet, newest first. -/
structure Subscriber where
  id : Nat
  /-- Whether the receiver is still there. -/
  listening : Bool
  received : List Event

namespace Subscriber

/-- To a receiver that is gone nothing can be sent. -/
def send? (event : Event) (subscriber : Subscriber) : Option Subscriber :=
  if subscriber.listening then some { subscriber with received := event :: subscriber.received }
  else none

/-- What a receiver that is gone has not taken is lost. -/
def gone (subscriber : Subscriber) : Subscriber :=
  { subscriber with listening := false, received := [] }

end Subscriber

structure Journal where
  runId : RunId
  correlationId : Option String
  actor : String
  createdAt : Timestamp
  /-- The most recent results, newest first. -/
  buffer : List StepResult
  subscribers : List Subscriber
  nextId : Nat
  /-- The lines of the log, newest first. -/
  log : Option (List Event)
deriving Inhabited

namespace Journal

/-- How many results are kept. -/
def capacity : Nat := 1000

def create (runId : RunId) (createdAt : Timestamp) (actor : String) (correlationId : Option String)
    (logged : Bool) : Journal :=
  { runId, correlationId, actor, createdAt, buffer := [], subscribers := [], nextId := 0,
    log := if logged then some [] else none }

/-- The identifier of the new subscriber, which receives all that is published from now on. -/
def subscribe (journal : Journal) : Nat × Journal :=
  (journal.nextId,
    { journal with
      subscribers := journal.subscribers ++ [⟨journal.nextId, true, []⟩]
      nextId := journal.nextId + 1 })

/-- The receiver goes; the journal learns of it when it sends to it. -/
def unsubscribe (journal : Journal) (id : Nat) : Journal :=
  { journal with
    subscribers := journal.subscribers.map fun s => if s.id = id then s.gone else s }

/-- Who listens under an identifier. -/
def listener? (journal : Journal) (id : Nat) : Option Subscriber :=
  journal.subscribers.find? fun s => s.listening ∧ s.id = id

/-- What a subscriber has received since it last looked. -/
def inbox (journal : Journal) (id : Nat) : List Event :=
  match journal.listener? id with
  | some subscriber => subscriber.received.reverse
  | none => []

def drain (journal : Journal) (id : Nat) : List Event × Journal :=
  (journal.inbox id,
    { journal with
      subscribers := journal.subscribers.map fun s =>
        if s.id = id then { s with received := [] } else s })

/-- Sends to all subscribers, and keeps those to whom it could be sent. -/
def publish (event : Event) (journal : Journal) : Journal :=
  { journal with subscribers := journal.subscribers.filterMap (Subscriber.send? event) }

def persist (event : Event) (journal : Journal) : Journal :=
  { journal with log := journal.log.map fun lines => event :: lines }

def start (journal : Journal) : Journal :=
  let event := Event.started journal.runId journal.correlationId journal.actor
  publish event (persist event journal)

/-- Keeps a result; at full capacity the oldest gives way. -/
def remember (result : StepResult) (journal : Journal) : Journal :=
  { journal with buffer := (result :: journal.buffer).take capacity }

def record (journal : Journal) (result : StepResult) : Journal :=
  publish (.step result) (persist (.step result) (remember result journal))

def trace (journal : Journal) (t : Trace) : Journal := publish (.trace t) journal

def finish (journal : Journal) (report : RunReport) : Journal :=
  publish (.finished report) (persist (.finished report) journal)

/-- The results that are kept, oldest first. -/
def results (journal : Journal) : List StepResult := journal.buffer.reverse

/-- The lines of the log, oldest first. -/
def logged (journal : Journal) : List Event := (journal.log.getD []).reverse

/-- The last `n` of the results that are kept. -/
def recent (journal : Journal) (n : Nat) : List StepResult :=
  journal.results.drop (journal.results.length - n)

/-- The file of the log is named for the actor, the time and the run. -/
def logName (journal : Journal) : String :=
  let digits := journal.createdAt.text.toList.filter Text.isDigit
  Store.safeName journal.actor ++ "_" ++ String.ofList (digits.take 8) ++ "_" ++
    String.ofList ((digits.drop 8).take 6) ++ "_" ++
    String.ofList (journal.runId.text.toList.take 8) ++ ".jsonl"

end Journal

end BlockScript
