import BlockScript.Proofs.Json.Members
import BlockScript.Wire.Report

/-!
# Events on the wire

Every event is read back from its text. The numbers of an event must have 64 bits. Each kind of
content is written from slots, so what is left out is read back as nothing, and a tag is taken off
before the content that stands beside it is read.
-/
namespace BlockScript
set_option autoImplicit false

open Json (Fills Tidy Written present notesSlot)

/-! ## Numbers of 64 bits -/

/-- A number that has 64 bits. -/
abbrev Fits64 (n : Nat) : Prop := n < UInt64.size

structure Location.Fits (loc : Location) : Prop where
  line : Fits64 loc.line
  column : Fits64 loc.column

structure StepSuccess.Fits (step : StepSuccess) : Prop where
  opIndex : Fits64 step.opIndex
  elapsedMs : Fits64 step.elapsedMs

structure StepFailure.Fits (step : StepFailure) : Prop where
  loc : step.loc.Fits
  opIndex : Fits64 step.opIndex

def StepResult.Fits : StepResult → Prop
  | success step => step.Fits
  | failure step => step.Fits

def TraceKind.Fits : TraceKind → Prop
  | loopIteration iteration _ _ => Fits64 iteration
  | macroEntered _ depth => Fits64 depth
  | commandStarted opIndex _ => Fits64 opIndex
  | _ => True

structure Trace.Fits (trace : Trace) : Prop where
  loc : trace.loc.Fits
  kind : trace.kind.Fits

structure Termination.Fits (termination : Termination) : Prop where
  loc : ∀ loc ∈ termination.loc, loc.Fits
  lastOpIndex : ∀ n ∈ termination.lastOpIndex, Fits64 n

def Outcome.Fits : Outcome → Prop
  | completed => True
  | terminated termination => termination.Fits

structure RunReport.Fits (report : RunReport) : Prop where
  results : ∀ result ∈ report.results, result.Fits
  ops : Fits64 report.ops
  outcome : report.outcome.Fits

def Event.Fits : Event → Prop
  | started .. => True
  | step result => result.Fits
  | trace t => t.Fits
  | finished report => report.Fits

/-! ## Parts -/

theorem bind_of_eq {α β : Type} {step : Option α} {a : α} (h : step = some a)
    (next : α → Option β) : (step >>= next) = next a := by
  rw [h]
  rfl

theorem string?_string (text : String) : Json.string? (.string text) = some text := rfl

theorem bool?_bool (value : Bool) : Json.bool? (.bool value) = some value := rfl

theorem nullable?_of_ne {α : Type} {decode : Json → Option α} {json : Json} {a : α}
    (h : decode json = some a) (hjson : json ≠ .null) :
    Json.nullable? decode json = some (some a) := by
  unfold Json.nullable?
  split
  · exact absurd rfl hjson
  · rw [h]
    rfl

theorem nullable?_string (text : String) :
    Json.nullable? Json.string? (.string text) = some (some text) :=
  nullable?_of_ne (string?_string text) nofun

theorem nullable?_int64 (n : Int64) :
    Json.nullable? Json.int64? (.int n.toInt) = some (some n) := by
  have hread : Json.int64? (.int n.toInt) = some n := fit64_toInt n
  exact nullable?_of_ne hread nofun

theorem nat64?_natJson {n : Nat} (h : Fits64 n) : Json.nat64? (natJson n) = some n := by
  have hbounds : (0 : Int) ≤ n ∧ (n : Int) < UInt64.size :=
    ⟨Int.natCast_nonneg n, Int.ofNat_lt.2 h⟩
  unfold Json.nat64? Json.natBelow? natJson
  dsimp only
  rw [if_pos hbounds, Int.toNat_natCast]

theorem readNotes {names : List String} {slots : List (String × Option Json)}
    (h : Fills names slots) (notes : List String) (hslot : ("notes", notesSlot notes) ∈ slots) :
    (Json.Fields.mk (present slots)).optional? "notes" [] notesJson? = some notes :=
  h.notes "notes" hslot

theorem Timestamp.ofJson?_toJson (stamp : Timestamp) : ofJson? stamp.toJson = some stamp :=
  ofText?_text stamp

theorem RunId.ofJson?_toJson (id : RunId) : ofJson? id.toJson = some id :=
  ofText?_text id

theorem ErrorKind.ofJson?_toJson (stage : Json.Stage) (kind : ErrorKind) :
    ofJson? stage kind.toJson = some kind := by
  cases stage <;> cases kind <;> decide

namespace Location

def slots (loc : Location) : List (String × Option Json) :=
  [("line", some (natJson loc.line)), ("column", some (natJson loc.column))]

theorem fills (loc : Location) : Fills ["line", "column"] loc.slots := ⟨rfl, by decide⟩

theorem toJson_eq (loc : Location) : loc.toJson = .object (present loc.slots) := rfl

theorem tidy {loc : Location} (h : loc.Fits) {depth : Nat} : Tidy (depth + 1) loc.toJson := by
  rw [toJson_eq]
  refine Written.tidy ⟨loc.fills, ?_⟩
  simp only [slots, List.forall_mem_cons]
  exact ⟨.some (Json.tidy_nat h.line), .some (Json.tidy_nat h.column), List.forall_mem_nil _⟩

theorem ofJson?_toJson {loc : Location} (h : loc.Fits) : ofJson? loc.toJson = some loc := by
  have hfills := loc.fills
  unfold ofJson?
  rw [toJson_eq, bind_of_eq hfills.record?,
    bind_of_eq (hfills.required? "line" (by simp [slots]) (nat64?_natJson h.line)),
    bind_of_eq (hfills.required? "column" (by simp [slots]) (nat64?_natJson h.column))]
  rfl

end Location

/-! ## Results -/

namespace StepSuccess

def slots (step : StepSuccess) : List (String × Option Json) :=
  [("opIndex", some (natJson step.opIndex)), ("op", some (.string step.op)),
    ("elapsedMs", some (natJson step.elapsedMs)), ("notes", notesSlot step.notes)]

abbrev names : List String := ["opIndex", "op", "elapsedMs", "notes"]

theorem fills (step : StepSuccess) : Fills names step.slots := ⟨rfl, by decide⟩

theorem toJson_eq (step : StepSuccess) : step.toJson = .object (present step.slots) := by
  unfold toJson
  rw [Json.notesMember_eq]
  rfl

theorem written {step : StepSuccess} (h : step.Fits) (depth : Nat) :
    Written (depth + 1) names step.slots := by
  refine ⟨step.fills, ?_⟩
  simp only [slots, List.forall_mem_cons]
  exact ⟨.some (Json.tidy_nat h.opIndex), .some (Json.tidy_string _),
    .some (Json.tidy_nat h.elapsedMs), .notes _, List.forall_mem_nil _⟩

theorem ofJson?_toJson {step : StepSuccess} (h : step.Fits) : ofJson? step.toJson = some step := by
  have hfills := step.fills
  unfold ofJson?
  rw [toJson_eq, bind_of_eq hfills.record?,
    bind_of_eq (hfills.required? "opIndex" (by simp [slots]) (nat64?_natJson h.opIndex)),
    bind_of_eq (hfills.required? "op" (by simp [slots]) (string?_string step.op)),
    bind_of_eq (hfills.required? "elapsedMs" (by simp [slots]) (nat64?_natJson h.elapsedMs)),
    bind_of_eq (readNotes hfills step.notes (by simp [slots]))]
  rfl

end StepSuccess

namespace StepFailure

def slots (step : StepFailure) : List (String × Option Json) :=
  [("error", some step.kind.toJson), ("code", step.code.map .string),
    ("message", some (.string step.message)), ("location", some step.loc.toJson),
    ("opIndex", some (natJson step.opIndex)), ("op", some (.string step.op)),
    ("notes", notesSlot step.notes), ("timestamp", some step.stamp.toJson)]

abbrev names : List String :=
  ["error", "code", "message", "location", "opIndex", "op", "notes", "timestamp"]

theorem fills (step : StepFailure) : Fills names step.slots := ⟨rfl, by decide⟩

theorem toJson_eq (step : StepFailure) : step.toJson = .object (present step.slots) := by
  unfold toJson
  rw [Json.member?_eq, Json.notesMember_eq]
  unfold slots
  cases step.code <;> cases step.notes <;> rfl

theorem written {step : StepFailure} (h : step.Fits) (depth : Nat) :
    Written (depth + 1) names step.slots := by
  refine ⟨step.fills, ?_⟩
  simp only [slots, List.forall_mem_cons]
  exact ⟨.some (Json.tidy_string _), .map fun _ _ => Json.tidy_string _, .some (Json.tidy_string _),
    .some (Location.tidy h.loc), .some (Json.tidy_nat h.opIndex), .some (Json.tidy_string _),
    .notes _, .some (Json.tidy_string _), List.forall_mem_nil _⟩

theorem ofJson?_toJson {step : StepFailure} (h : step.Fits) : ofJson? step.toJson = some step := by
  have hfills := step.fills
  unfold ofJson?
  rw [toJson_eq, bind_of_eq hfills.record?,
    bind_of_eq (hfills.required? "error" (by simp [slots]) (step.kind.ofJson?_toJson .held)),
    bind_of_eq (hfills.optional? "code" step.code (by simp [slots])
      fun text _ => nullable?_string text),
    bind_of_eq (hfills.required? "message" (by simp [slots]) (string?_string step.message)),
    bind_of_eq (hfills.required? "location" (by simp [slots]) (Location.ofJson?_toJson h.loc)),
    bind_of_eq (hfills.required? "opIndex" (by simp [slots]) (nat64?_natJson h.opIndex)),
    bind_of_eq (hfills.required? "op" (by simp [slots]) (string?_string step.op)),
    bind_of_eq (readNotes hfills step.notes (by simp [slots])),
    bind_of_eq (hfills.required? "timestamp" (by simp [slots]) step.stamp.ofJson?_toJson)]
  rfl

end StepFailure

namespace StepResult

/-- The members with the tag in front. -/
def slots : StepResult → List (String × Option Json)
  | success step => ("status", some (.string "success")) :: step.slots
  | failure step => ("status", some (.string "failure")) :: step.slots

def names : StepResult → List String
  | success _ => "status" :: StepSuccess.names
  | failure _ => "status" :: StepFailure.names

theorem toJson_eq (result : StepResult) : result.toJson = .object (present result.slots) := by
  cases result with
  | success step =>
    rw [toJson, StepSuccess.toJson_eq]
    rfl
  | failure step =>
    rw [toJson, StepFailure.toJson_eq]
    rfl

theorem written {result : StepResult} (h : result.Fits) (depth : Nat) :
    Written (depth + 1) result.names result.slots := by
  cases result with
  | success step => exact (StepSuccess.written h depth).withTag (by decide) "success"
  | failure step => exact (StepFailure.written h depth).withTag (by decide) "failure"

theorem ofJson?_toJson {result : StepResult} (h : result.Fits) (stage : Json.Stage) :
    ofJson? stage result.toJson = some result := by
  unfold ofJson?
  cases result with
  | success step =>
    have htagged := (StepSuccess.written h 0).tagged? "status" (by decide) "success" statuses stage
    rw [toJson, StepSuccess.toJson_eq, bind_of_eq htagged, ← StepSuccess.toJson_eq]
    exact bind_of_eq (StepSuccess.ofJson?_toJson h) _
  | failure step =>
    have htagged := (StepFailure.written h 0).tagged? "status" (by decide) "failure" statuses stage
    rw [toJson, StepFailure.toJson_eq, bind_of_eq htagged, ← StepFailure.toJson_eq]
    exact bind_of_eq (StepFailure.ofJson?_toJson h) _

end StepResult

/-! ## Traces -/

namespace TraceKind

/-- The word of the tag. -/
def word : TraceKind → String
  | branchTaken _ => "branch_taken"
  | loopIteration .. => "loop_iteration"
  | variableBound .. => "variable_bound"
  | predicateEvaluated .. => "predicate_evaluated"
  | macroEntered .. => "macro_entered"
  | assertionChecked _ => "assertion_checked"
  | commandStarted .. => "command_started"

/-- The members beside the tag. -/
def slots : TraceKind → List (String × Option Json)
  | branchTaken taken => [("taken", some (.bool taken))]
  | loopIteration iteration name value =>
    [("iteration", some (natJson iteration)), ("variable", name.map .string),
      ("value", value.map fun n : Int64 => .int n.toInt)]
  | variableBound name value => [("name", some (.string name)), ("value", some (.string value))]
  | predicateEvaluated name value => [("name", some (.string name)), ("value", some (.bool value))]
  | macroEntered name depth => [("name", some (.string name)), ("depth", some (natJson depth))]
  | assertionChecked passed => [("passed", some (.bool passed))]
  | commandStarted opIndex op => [("opIndex", some (natJson opIndex)), ("op", some (.string op))]

def names : TraceKind → List String
  | branchTaken _ => ["taken"]
  | loopIteration .. => ["iteration", "variable", "value"]
  | variableBound .. => ["name", "value"]
  | predicateEvaluated .. => ["name", "value"]
  | macroEntered .. => ["name", "depth"]
  | assertionChecked _ => ["passed"]
  | commandStarted .. => ["opIndex", "op"]

theorem fills (kind : TraceKind) : Fills kind.names kind.slots := by
  cases kind <;> exact ⟨rfl, by simp [names]⟩

theorem toJson_eq (kind : TraceKind) :
    kind.toJson = .object (("type", .string kind.word) :: present kind.slots) := by
  cases kind with
  | loopIteration iteration name value => cases name <;> cases value <;> rfl
  | _ => rfl

theorem written {kind : TraceKind} (h : kind.Fits) (depth : Nat) :
    Written depth kind.names kind.slots := by
  refine ⟨kind.fills, ?_⟩
  cases kind with
  | branchTaken taken =>
    simp only [slots, List.forall_mem_cons]
    exact ⟨.some (Json.tidy_bool _), List.forall_mem_nil _⟩
  | loopIteration iteration name value =>
    simp only [slots, List.forall_mem_cons]
    exact ⟨.some (Json.tidy_nat h), .map fun _ _ => Json.tidy_string _,
      .map fun _ _ => Json.tidy_int64 _, List.forall_mem_nil _⟩
  | variableBound name value =>
    simp only [slots, List.forall_mem_cons]
    exact ⟨.some (Json.tidy_string _), .some (Json.tidy_string _), List.forall_mem_nil _⟩
  | predicateEvaluated name value =>
    simp only [slots, List.forall_mem_cons]
    exact ⟨.some (Json.tidy_string _), .some (Json.tidy_bool _), List.forall_mem_nil _⟩
  | macroEntered name depth =>
    simp only [slots, List.forall_mem_cons]
    exact ⟨.some (Json.tidy_string _), .some (Json.tidy_nat h), List.forall_mem_nil _⟩
  | assertionChecked passed =>
    simp only [slots, List.forall_mem_cons]
    exact ⟨.some (Json.tidy_bool _), List.forall_mem_nil _⟩
  | commandStarted opIndex op =>
    simp only [slots, List.forall_mem_cons]
    exact ⟨.some (Json.tidy_nat h), .some (Json.tidy_string _), List.forall_mem_nil _⟩

/-- The members of a kind are read back by the word of its tag. -/
theorem ofContent?_present {kind : TraceKind} (h : kind.Fits) :
    ofContent? kind.word (.object (present kind.slots)) = some kind := by
  cases kind with
  | branchTaken taken =>
    have hfills : Fills ["taken"] _ := (branchTaken taken).fills
    rw [word, ofContent?, bind_of_eq hfills.record?,
      bind_of_eq (hfills.required? "taken" (by simp [slots]) (bool?_bool taken))]
    rfl
  | loopIteration iteration name value =>
    have hfills : Fills ["iteration", "variable", "value"] _ :=
      (loopIteration iteration name value).fills
    rw [word, ofContent?, bind_of_eq hfills.record?,
      bind_of_eq (hfills.required? "iteration" (by simp [slots]) (nat64?_natJson h)),
      bind_of_eq (hfills.optional? "variable" name (by simp [slots])
        fun text _ => nullable?_string text),
      bind_of_eq (hfills.optional? "value" value (by simp [slots])
        fun n _ => nullable?_int64 n)]
    rfl
  | variableBound name value =>
    have hfills : Fills ["name", "value"] _ := (variableBound name value).fills
    rw [word, ofContent?, bind_of_eq hfills.record?,
      bind_of_eq (hfills.required? "name" (by simp [slots]) (string?_string name)),
      bind_of_eq (hfills.required? "value" (by simp [slots]) (string?_string value))]
    rfl
  | predicateEvaluated name value =>
    have hfills : Fills ["name", "value"] _ := (predicateEvaluated name value).fills
    rw [word, ofContent?, bind_of_eq hfills.record?,
      bind_of_eq (hfills.required? "name" (by simp [slots]) (string?_string name)),
      bind_of_eq (hfills.required? "value" (by simp [slots]) (bool?_bool value))]
    rfl
  | macroEntered name depth =>
    have hfills : Fills ["name", "depth"] _ := (macroEntered name depth).fills
    rw [word, ofContent?, bind_of_eq hfills.record?,
      bind_of_eq (hfills.required? "name" (by simp [slots]) (string?_string name)),
      bind_of_eq (hfills.required? "depth" (by simp [slots]) (nat64?_natJson h))]
    rfl
  | assertionChecked passed =>
    have hfills : Fills ["passed"] _ := (assertionChecked passed).fills
    rw [word, ofContent?, bind_of_eq hfills.record?,
      bind_of_eq (hfills.required? "passed" (by simp [slots]) (bool?_bool passed))]
    rfl
  | commandStarted opIndex op =>
    have hfills : Fills ["opIndex", "op"] _ := (commandStarted opIndex op).fills
    rw [word, ofContent?, bind_of_eq hfills.record?,
      bind_of_eq (hfills.required? "opIndex" (by simp [slots]) (nat64?_natJson h)),
      bind_of_eq (hfills.required? "op" (by simp [slots]) (string?_string op))]
    rfl

end TraceKind

namespace Trace

def ownSlots (trace : Trace) : List (String × Option Json) :=
  [("timestamp", some trace.stamp.toJson), ("location", some trace.loc.toJson)]

theorem ownFills (trace : Trace) : Fills ownNames trace.ownSlots := ⟨rfl, by decide⟩

/-- The members of the kind, with its tag, stand after those of the trace. -/
def slots (trace : Trace) : List (String × Option Json) :=
  trace.ownSlots ++ ("type", some (.string trace.kind.word)) :: trace.kind.slots

def names (trace : Trace) : List String := ownNames ++ "type" :: trace.kind.names

theorem toJson_eq (trace : Trace) : trace.toJson = .object (present trace.slots) := by
  unfold toJson
  rw [TraceKind.toJson_eq]
  rfl

theorem written {trace : Trace} (h : trace.Fits) (depth : Nat) :
    Written (depth + 1) trace.names trace.slots := by
  have hkind := TraceKind.written h.kind (depth + 1)
  refine ⟨⟨?_, ?_⟩, ?_⟩
  · rw [slots, List.map_append, List.map_cons, hkind.names_eq]
    rfl
  · unfold names
    cases trace.kind <;> simp [ownNames, TraceKind.names]
  · unfold slots
    rw [List.forall_mem_append, List.forall_mem_cons]
    refine ⟨?_, .some (Json.tidy_string _), hkind.tidySlots⟩
    simp only [ownSlots, List.forall_mem_cons]
    exact ⟨.some (Json.tidy_string _), .some (Location.tidy h.loc), List.forall_mem_nil _⟩

theorem ofJson?_toJson {trace : Trace} (h : trace.Fits) : ofJson? trace.toJson = some trace := by
  have hkind := TraceKind.written h.kind 0
  have hnames : ∀ name ∈ "type" :: trace.kind.names, name ∉ ownNames := by
    cases trace.kind <;> simp [ownNames, TraceKind.names]
  have hothers : ∀ entry ∈ ("type", Json.string trace.kind.word) :: present trace.kind.slots,
      entry.1 ∉ ownNames := by
    intro entry hentry
    refine hnames _ ?_
    rcases List.mem_cons.1 hentry with rfl | hslot
    · exact List.mem_cons_self
    · exact List.mem_cons_of_mem _ (hkind.mem_names entry hslot)
  have hrecord := Json.record?_append trace.ownFills.mem_names trace.ownFills.nodup_present hothers
  have hleft := Json.filter_others trace.ownFills.mem_names hothers
  have htype : "type" ∉ trace.kind.names := by
    cases trace.kind <;> simp [TraceKind.names]
  have htagged := hkind.tagged? "type" htype trace.kind.word TraceKind.types .held
  have hread : TraceKind.ofJson? (.object
      (("type", .string trace.kind.word) :: present trace.kind.slots)) = some trace.kind :=
    (bind_of_eq htagged _).trans (TraceKind.ofContent?_present h.kind)
  have hjson : trace.toJson = .object (present trace.ownSlots ++
      ("type", .string trace.kind.word) :: present trace.kind.slots) := trace.toJson_eq
  unfold ofJson?
  rw [hjson]
  dsimp only
  rw [bind_of_eq hrecord,
    bind_of_eq (trace.ownFills.required? "timestamp" (by simp [ownSlots])
      trace.stamp.ofJson?_toJson),
    bind_of_eq (trace.ownFills.required? "location" (by simp [ownSlots])
      (Location.ofJson?_toJson h.loc)), hleft, bind_of_eq hread]
  rfl

end Trace

/-! ## Reports -/

namespace Termination

def slots (termination : Termination) : List (String × Option Json) :=
  [("kind", some termination.kind.toJson), ("message", some (.string termination.message)),
    ("location", termination.loc.map Location.toJson),
    ("lastOpIndex", termination.lastOpIndex.map natJson), ("op", termination.op.map .string),
    ("notes", notesSlot termination.notes), ("timestamp", some termination.stamp.toJson)]

abbrev names : List String :=
  ["kind", "message", "location", "lastOpIndex", "op", "notes", "timestamp"]

theorem fills (termination : Termination) : Fills names termination.slots := ⟨rfl, by decide⟩

theorem toJson_eq (termination : Termination) :
    termination.toJson = .object (present termination.slots) := by
  unfold toJson slots
  cases termination.loc <;> cases termination.lastOpIndex <;> cases termination.op <;>
    cases termination.notes <;> rfl

theorem written {termination : Termination} (h : termination.Fits) (depth : Nat) :
    Written (depth + 1) names termination.slots := by
  refine ⟨termination.fills, ?_⟩
  simp only [slots, List.forall_mem_cons]
  exact ⟨.some (Json.tidy_string _), .some (Json.tidy_string _),
    .map fun loc hloc => Location.tidy (h.loc loc hloc),
    .map fun n hn => Json.tidy_nat (h.lastOpIndex n hn), .map fun _ _ => Json.tidy_string _,
    .notes _, .some (Json.tidy_string _), List.forall_mem_nil _⟩

theorem ofJson?_toJson {termination : Termination} (h : termination.Fits) (stage : Json.Stage) :
    ofJson? stage termination.toJson = some termination := by
  have hfills := termination.fills
  have hloc : ∀ loc ∈ termination.loc,
      Json.nullable? Location.ofJson? loc.toJson = some (some loc) := by
    intro loc hloc
    exact nullable?_of_ne (Location.ofJson?_toJson (h.loc loc hloc)) nofun
  have hindex : ∀ n ∈ termination.lastOpIndex,
      Json.nullable? Json.nat64? (natJson n) = some (some n) := by
    intro n hn
    exact nullable?_of_ne (nat64?_natJson (h.lastOpIndex n hn)) nofun
  unfold ofJson?
  rw [toJson_eq, bind_of_eq hfills.record?,
    bind_of_eq (hfills.required? "kind" (by simp [slots]) (termination.kind.ofJson?_toJson stage)),
    bind_of_eq (hfills.required? "message" (by simp [slots]) (string?_string termination.message)),
    bind_of_eq (hfills.optional? "location" termination.loc (by simp [slots]) hloc),
    bind_of_eq (hfills.optional? "lastOpIndex" termination.lastOpIndex (by simp [slots]) hindex),
    bind_of_eq (hfills.optional? "op" termination.op (by simp [slots])
      fun text _ => nullable?_string text),
    bind_of_eq (readNotes hfills termination.notes (by simp [slots])),
    bind_of_eq (hfills.required? "timestamp" (by simp [slots]) termination.stamp.ofJson?_toJson)]
  rfl

end Termination

namespace Outcome

/-- The members with the tag in front. -/
def slots : Outcome → List (String × Option Json)
  | completed => [("outcome", some (.string "completed"))]
  | terminated termination => ("outcome", some (.string "terminated")) :: termination.slots

def names : Outcome → List String
  | completed => ["outcome"]
  | terminated _ => "outcome" :: Termination.names

theorem toJson_eq (outcome : Outcome) : outcome.toJson = .object (present outcome.slots) := by
  cases outcome with
  | completed => rfl
  | terminated termination =>
    rw [toJson, Termination.toJson_eq]
    rfl

theorem written {outcome : Outcome} (h : outcome.Fits) (depth : Nat) :
    Written (depth + 1) outcome.names outcome.slots := by
  cases outcome with
  | completed => exact Written.nil.withTag List.not_mem_nil "completed"
  | terminated termination =>
    exact (Termination.written h depth).withTag (by decide) "terminated"

theorem ofJson?_toJson {outcome : Outcome} (h : outcome.Fits) (stage : Json.Stage) :
    ofJson? stage outcome.toJson = some outcome := by
  unfold ofJson?
  cases outcome with
  | completed =>
    have hnothing : Written 0 [] [] := .nil
    exact bind_of_eq
      (hnothing.tagged? "outcome" List.not_mem_nil "completed" outcomes stage) _
  | terminated termination =>
    have htagged :=
      (Termination.written h 0).tagged? "outcome" (by decide) "terminated" outcomes stage
    rw [toJson, Termination.toJson_eq, bind_of_eq htagged, ← Termination.toJson_eq]
    exact bind_of_eq (Termination.ofJson?_toJson h .held) _

end Outcome

namespace RunReport

def slots (report : RunReport) : List (String × Option Json) :=
  [("runId", some report.runId.toJson), ("correlationId", report.correlationId.map .string),
    ("results", some (.array (report.results.map StepResult.toJson))),
    ("ops", some (natJson report.ops)), ("outcome", some report.outcome.toJson)]

abbrev names : List String := ["runId", "correlationId", "results", "ops", "outcome"]

theorem fills (report : RunReport) : Fills names report.slots := ⟨rfl, by decide⟩

theorem toJson_eq (report : RunReport) : report.toJson = .object (present report.slots) := by
  unfold toJson slots
  cases report.correlationId <;> rfl

theorem written {report : RunReport} (h : report.Fits) (depth : Nat) :
    Written (depth + 3) names report.slots := by
  have hresults : ∀ item ∈ report.results.map StepResult.toJson, Tidy (depth + 2) item := by
    intro item hitem
    obtain ⟨result, hresult, rfl⟩ := List.mem_map.1 hitem
    rw [StepResult.toJson_eq]
    exact (StepResult.written (h.results result hresult) depth).tidy
  have houtcome : Tidy (depth + 3) report.outcome.toJson := by
    rw [Outcome.toJson_eq]
    exact (Outcome.written h.outcome (depth + 1)).tidy
  refine ⟨report.fills, ?_⟩
  simp only [slots, List.forall_mem_cons]
  exact ⟨.some (Json.tidy_string _), .map fun _ _ => Json.tidy_string _,
    .some (Json.tidy_array hresults), .some (Json.tidy_nat h.ops), .some houtcome,
    List.forall_mem_nil _⟩

theorem ofJson?_toJson {report : RunReport} (h : report.Fits) (stage : Json.Stage) :
    ofJson? stage report.toJson = some report := by
  have hfills := report.fills
  have hresults : Json.list? (StepResult.ofJson? stage)
      (.array (report.results.map StepResult.toJson)) = some report.results :=
    Json.list?_map fun result hresult => StepResult.ofJson?_toJson (h.results result hresult) stage
  unfold ofJson?
  rw [toJson_eq, bind_of_eq hfills.record?,
    bind_of_eq (hfills.required? "runId" (by simp [slots]) report.runId.ofJson?_toJson),
    bind_of_eq (hfills.optional? "correlationId" report.correlationId (by simp [slots])
      fun text _ => nullable?_string text),
    bind_of_eq (hfills.required? "results" (by simp [slots]) hresults),
    bind_of_eq (hfills.required? "ops" (by simp [slots]) (nat64?_natJson h.ops)),
    bind_of_eq (hfills.required? "outcome" (by simp [slots])
      (Outcome.ofJson?_toJson h.outcome stage))]
  rfl

end RunReport

/-! ## Events -/

namespace Event

def startedSlots (runId : RunId) (correlationId : Option String) (actor : String) :
    List (String × Option Json) :=
  [("run_id", some runId.toJson), ("correlation_id", correlationId.map .string),
    ("actor", some (.string actor))]

/-- The members beside the tag. -/
def slots : Event → List (String × Option Json)
  | started runId correlationId actor => startedSlots runId correlationId actor
  | step result => result.slots
  | trace t => t.slots
  | finished report => report.slots

def contentNames : Event → List String
  | started .. => ["run_id", "correlation_id", "actor"]
  | step result => result.names
  | trace t => t.names
  | finished _ => RunReport.names

def word : Event → String
  | started .. => "started"
  | step _ => "step"
  | trace _ => "trace"
  | finished _ => "finished"

theorem startedFills (runId : RunId) (correlationId : Option String) (actor : String) :
    Fills ["run_id", "correlation_id", "actor"] (startedSlots runId correlationId actor) :=
  ⟨rfl, by decide⟩

theorem toJson_eq (event : Event) :
    event.toJson = Json.withTag "event" event.word (.object (present event.slots)) := by
  cases event with
  | started runId correlationId actor => cases correlationId <;> rfl
  | step result =>
    rw [toJson, StepResult.toJson_eq]
    rfl
  | trace t =>
    rw [toJson, Trace.toJson_eq]
    rfl
  | finished report =>
    rw [toJson, RunReport.toJson_eq]
    rfl

theorem written {event : Event} (h : event.Fits) (depth : Nat) :
    Written (depth + 3) event.contentNames event.slots := by
  cases event with
  | started runId correlationId actor =>
    refine ⟨startedFills runId correlationId actor, ?_⟩
    simp only [slots, startedSlots, List.forall_mem_cons]
    exact ⟨.some (Json.tidy_string _), .map fun _ _ => Json.tidy_string _,
      .some (Json.tidy_string _), List.forall_mem_nil _⟩
  | step result => exact StepResult.written h (depth + 2)
  | trace t => exact Trace.written h (depth + 2)
  | finished report => exact RunReport.written h depth

/-- No content has a member of the name of the tag. -/
theorem tag_free (event : Event) : "event" ∉ event.contentNames := by
  cases event with
  | started runId correlationId actor => simp [contentNames]
  | step result => cases result <;> simp [contentNames, StepResult.names]
  | trace t =>
    obtain ⟨stamp, loc, kind⟩ := t
    cases kind <;> simp [contentNames, Trace.names, Trace.ownNames, TraceKind.names]
  | finished report => simp [contentNames]

theorem startedOfJson?_present (runId : RunId) (correlationId : Option String) (actor : String) :
    startedOfJson? (.object (present (startedSlots runId correlationId actor))) =
      some (started runId correlationId actor) := by
  have hfills := startedFills runId correlationId actor
  unfold startedOfJson?
  rw [bind_of_eq hfills.record?,
    bind_of_eq (hfills.required? "run_id" (by simp [startedSlots]) runId.ofJson?_toJson),
    bind_of_eq (hfills.optional? "correlation_id" correlationId (by simp [startedSlots])
      fun text _ => nullable?_string text),
    bind_of_eq (hfills.required? "actor" (by simp [startedSlots]) (string?_string actor))]
  rfl

theorem ofJson?_toJson {event : Event} (h : event.Fits) : ofJson? event.toJson = some event := by
  have htagged := (written h 0).tagged? "event" event.tag_free event.word Event.names .fresh
  unfold ofJson?
  rw [toJson_eq, bind_of_eq htagged]
  cases event with
  | started runId correlationId actor =>
    exact startedOfJson?_present runId correlationId actor
  | step result =>
    have hread := StepResult.ofJson?_toJson h .held
    rw [StepResult.toJson_eq] at hread
    exact bind_of_eq hread _
  | trace t =>
    have hread := Trace.ofJson?_toJson h
    rw [Trace.toJson_eq] at hread
    exact bind_of_eq hread _
  | finished report =>
    have hread := RunReport.ofJson?_toJson h .held
    rw [RunReport.toJson_eq] at hread
    exact bind_of_eq hread _

/-- Every event is read back from its text, and no object in it has two members of one name: no tag
meets a member of what it stands beside. The numbers of an event have 64 bits. -/
theorem events_survive_the_wire (event : Event) (hfits : event.Fits) :
    (Json.skim event.toJson.render).bind Event.ofJson? = some event ∧
      event.toJson.Distinct := by
  have htidy : Tidy Json.Reader.maxDepth event.toJson := by
    rw [toJson_eq]
    exact ((written hfits 123).withTag event.tag_free event.word).tidy
  refine ⟨?_, htidy.distinct⟩
  rw [Json.skim_render htidy.legible]
  exact ofJson?_toJson hfits

/-- A report with a result of each kind, of which the last one has the greatest index, that was
stopped with nothing told but the index. -/
def stoppedReport : Event :=
  finished {
    runId := default
    correlationId := none
    results := [.success ⟨0, "step", 12, []⟩,
      .failure ⟨.command, some "BLOCKED", "\"no\"\n", ⟨3, 5⟩, 18446744073709551615, "step",
        ["wall", "é"], default⟩]
    ops := 18446744073709551615
    outcome := .terminated
      ⟨.connectionLost, "", none, some 18446744073709551615, none, [], default⟩ }

theorem stoppedReport_survives_the_wire :
    stoppedReport.Fits ∧
      (Json.skim stoppedReport.toJson.render).bind Event.ofJson? = some stoppedReport := by
  have hfits : stoppedReport.Fits := by
    refine ⟨?_, by decide, ⟨?_, ?_⟩⟩
    · simp only [List.forall_mem_cons]
      exact ⟨⟨by decide, by decide⟩, ⟨⟨by decide, by decide⟩, by decide⟩, List.forall_mem_nil _⟩
    · rintro loc ⟨⟩
    · rintro n ⟨⟩
      decide
  exact ⟨hfits, (events_survive_the_wire stoppedReport hfits).1⟩

end Event

end BlockScript
