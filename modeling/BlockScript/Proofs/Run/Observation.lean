import BlockScript.Proofs.Report.Journal
import BlockScript.Proofs.Run.Commands
import BlockScript.Proofs.Run.Lockstep

/-!
# Watching a run

A context can be replaced by one that writes down every question the run asks of it, with the
answer. Watching changes nothing: the watched run gives the same report and leaves the same world
behind, and its journal holds the events of the original one and all traces. A property of what is
written down that every single step keeps holds at the end of every run.
-/
namespace BlockScript
set_option autoImplicit false

/-! ## Contacts -/

/-- A question of a run to the world outside, with the answer. -/
inductive Contact where
  | cancelled (answer : Bool)
  | pose (answer : Except ProbeError Pose)
  | scanned (radius : UInt32) (answer : Except ProbeError Unit)
  | searched (query : Query) (origin : Position) (radius : UInt32)
      (answer : Except ProbeError (Option Position))
  | waypoint (actor name : String) (answer : Except StoreError (Option Waypoint))
  | function (actor name : String) (answer : Except StoreError (Option StoredFunction))
  | judged (name : String) (args : Arguments) (answer : Except Fault Bool)
  | needsScan (op : String) (answer : Bool)
  /-- The check of a command's arguments. -/
  | checked (op : String) (args : Arguments) (answer : Except Fault Unit)
  /-- The action of a command. -/
  | executed (op : String) (args : Arguments) (answer : Except Fault (List String))

/-- The check and the action of a command. -/
def Contact.isCommand : Contact → Bool
  | checked .. => true
  | executed .. => true
  | _ => false

namespace Dict

variable {α β : Type}

/-- Changes every value, knowing its key. -/
def mapValues (f : String → α → β) (dict : Dict α) : Dict β :=
  ⟨dict.entries.map fun entry => (entry.1, f entry.1 entry.2),
    List.pairwise_map.2 dict.sorted⟩

theorem get?_mapValues (f : String → α → β) (dict : Dict α) (key : String) :
    (dict.mapValues f).get? key = (dict.get? key).map (f key) := by
  change (dict.entries.map fun entry => (entry.1, f entry.1 entry.2)).lookup key =
    (dict.entries.lookup key).map (f key)
  induction dict.entries with
  | nil => rfl
  | cons entry rest ih =>
    rw [List.map_cons, lookup_cons_if, ih, lookup_cons_if]
    by_cases h : key = entry.1
    · rw [if_pos h, if_pos h, h]
      rfl
    · rw [if_neg h, if_neg h]

end Dict

variable {σ α : Type}

/-- Writes down what is asked, newest first. -/
def Act.recorded (act : Act σ α) (contact : α → Contact) : Act (σ × List Contact) α := fun seen =>
  ((act seen.1).1, (act seen.1).2, contact (act seen.1).1 :: seen.2)

def CommandHandler.recorded (op : String) (handler : CommandHandler σ) :
    CommandHandler (σ × List Contact) where
  validate := fun args => Act.recorded (handler.validate args) (.checked op args)
  needsScan := Act.recorded handler.needsScan (.needsScan op)
  execute := fun args => Act.recorded (handler.execute args) (.executed op args)

def PredicateHandler.recorded (name : String) (handler : PredicateHandler σ) :
    PredicateHandler (σ × List Contact) where
  evaluate := fun args => Act.recorded (handler.evaluate args) (.judged name args)

def Probe.recorded (probe : Probe σ) : Probe (σ × List Contact) where
  pose := Act.recorded probe.pose .pose
  blockAt := fun position seen =>
    ((probe.blockAt position seen.1).1, (probe.blockAt position seen.1).2, seen.2)
  scan := fun radius => Act.recorded (probe.scan radius) (.scanned radius)
  findBlock := fun query origin radius =>
    Act.recorded (probe.findBlock query origin radius) (.searched query origin radius)

def Context.recorded (context : Context σ) : Context (σ × List Contact) where
  registry :=
    { commands := context.registry.commands.mapValues CommandHandler.recorded
      predicates := context.registry.predicates.mapValues PredicateHandler.recorded }
  probe := context.probe.recorded
  waypoint := fun actor name => Act.recorded (context.waypoint actor name) (.waypoint actor name)
  function := fun actor name => Act.recorded (context.function actor name) (.function actor name)
  cancelled := Act.recorded context.cancelled .cancelled

/-- The setup of a run that is watched: all contacts are written down and all traces published. -/
def Setup.watched (setup : Setup σ) : Setup (σ × List Contact) where
  context := setup.context.recorded
  options := { setup.options with trace := true }

namespace Run

/-- The contacts of a command, by what its result is made of: none if a position could not be found,
only the check if that failed, and else the check and one action. -/
inductive Footprint : StepResult → List Contact → Prop where
  | lookup (call : CommandCall) (opIndex : Nat) (stamp : Timestamp) (message : String)
      (notes : List String) : Footprint (lookupResult call opIndex stamp message notes) []
  | refused (call : CommandCall) (opIndex : Nat) (stamp : Timestamp) (notes : List String)
      (args : Arguments) (fault : Fault) :
      Footprint (resultOf call opIndex stamp notes (.error fault))
        [.checked call.name args (.error fault)]
  | executed (call : CommandCall) (opIndex : Nat) (stamp : Timestamp) (notes : List String)
      (args : Arguments) (outcome : Except Fault (List String)) :
      Footprint (resultOf call opIndex stamp notes outcome)
        [.checked call.name args (.ok ()), .executed call.name args outcome]

/-- The result of a command has its number and its name. -/
theorem settle_of_call (call : CommandCall) (handler : CommandHandler σ) (opIndex : Nat)
    (stamp : Timestamp) (prepared : Prepared) (world : σ) :
    (settle call handler opIndex stamp prepared world).1.opIndex = opIndex ∧
      (settle call handler opIndex stamp prepared world).1.op = call.name := by
  cases prepared with
  | lookupFailed message notes => exact ⟨rfl, rfl⟩
  | ready args notes =>
    change (resultOf call opIndex stamp notes (attempt handler args world).1).opIndex = opIndex ∧
      (resultOf call opIndex stamp notes (attempt handler args world).1).op = call.name
    cases (attempt handler args world).1 <;> exact ⟨rfl, rfl⟩

/-- A recorded command has the result that it would have had, and leaves its footprint. -/
theorem settle_recorded (call : CommandCall) (handler : CommandHandler σ) (opIndex : Nat)
    (stamp : Timestamp) (prepared : Prepared) (seen : σ × List Contact) :
    ∃ footprint,
      Footprint (settle call handler opIndex stamp prepared seen.1).1 footprint ∧
      settle call (handler.recorded call.name) opIndex stamp prepared seen =
        ((settle call handler opIndex stamp prepared seen.1).1,
          (settle call handler opIndex stamp prepared seen.1).2,
          footprint.reverse ++ seen.2) := by
  obtain ⟨world, contacts⟩ := seen
  cases prepared with
  | lookupFailed message notes => exact ⟨[], .lookup .., rfl⟩
  | ready args notes =>
    dsimp only [settle]
    cases hcheck : handler.validate args world with
    | mk answer world' =>
      cases answer with
      | error fault =>
        have hplain : attempt handler args world = (.error fault, world') := by
          unfold attempt
          rw [hcheck]
        have hseen : attempt (handler.recorded call.name) args (world, contacts) =
            (.error fault, world', .checked call.name args (.error fault) :: contacts) := by
          simp only [attempt, CommandHandler.recorded, Act.recorded, hcheck]
        rw [hplain, hseen]
        exact ⟨_, .refused call opIndex stamp notes args fault, rfl⟩
      | ok _ =>
        have hplain : attempt handler args world = handler.execute args world' := by
          unfold attempt
          rw [hcheck]
        have hseen : attempt (handler.recorded call.name) args (world, contacts) =
            ((handler.execute args world').1, (handler.execute args world').2,
              .executed call.name args (handler.execute args world').1 ::
                .checked call.name args (.ok ()) :: contacts) := by
          simp only [attempt, CommandHandler.recorded, Act.recorded, hcheck]
        rw [hplain, hseen]
        exact ⟨_, .executed call opIndex stamp notes args _, rfl⟩

/-! ## The watched run -/

/-- The events that a run with these options publishes, out of those of the watched run. -/
def published (options : RunOptions) (events : List Event) : List Event :=
  if options.trace then events else events.filter fun event => !event.isTrace

/-- The outside of a run beside the one of the watched run, whose journal has noted the events. -/
structure Mirrors (options : RunOptions) (journal : Journal) (events : List Event) (o : Outside σ)
    (p : Outside (σ × List Contact)) : Prop where
  world : o.world = p.world.1
  results : o.results = p.results
  ops : o.ops = p.ops
  lastOk : o.lastOk = p.lastOk
  lastOp : o.lastOp = p.lastOp
  heard : p.journal = journal.noteAll events
  journal : o.journal = journal.noteAll (published options events)

/-- A property of the events and the outside of a watched run that single steps keep. -/
structure Keeps (setup : Setup σ) (Inv : List Event → Outside (σ × List Contact) → Prop) :
    Prop where
  asked : ∀ events p world contact, contact.isCommand = false → Inv events p →
    Inv events { p with world := (world, contact :: p.world.2) }
  traced : ∀ events p t,
    (t.kind.isFlow = true ∨
      (∃ name value, name ≠ lastOkName ∧ t.kind = .predicateEvaluated name value) ∨
      t.kind = .predicateEvaluated lastOkName (p.lastOk.getD true) ∨
      (∃ op, t.kind = .commandStarted p.ops op)) →
    Inv events p → Inv (events ++ [.trace t]) { p with journal := p.journal.trace t }
  concluded : ∀ events p op result world footprint, p.ops < setup.options.opLimit →
    result.opIndex = p.ops → result.op = op → Footprint result footprint → Inv events p →
    Inv (events ++ [.step result])
      (p.concluded op result (world, footprint.reverse ++ p.world.2))

/-- The outsides of a run and of the watched run, of which a property holds. -/
def Watched (setup : Setup σ) (journal : Journal)
    (Inv : List Event → Outside (σ × List Contact) → Prop) (o : Outside σ)
    (p : Outside (σ × List Contact)) : Prop :=
  ∃ events, Mirrors setup.options journal events o p ∧ Inv events p

theorem published_append (options : RunOptions) (before after : List Event) :
    published options (before ++ after) = published options before ++ published options after := by
  unfold published
  split
  · rfl
  · exact List.filter_append ..

theorem published_step (options : RunOptions) (result : StepResult) :
    published options [.step result] = [.step result] := by
  unfold published
  split <;> rfl

namespace Watched

variable {setup : Setup σ} {journal : Journal}
  {Inv : List Event → Outside (σ × List Contact) → Prop}

theorem asks (hkeeps : Keeps setup Inv) (act : Act σ α) {contact : α → Contact}
    (hcontact : ∀ answer, (contact answer).isCommand = false) :
    AsksAlike (Watched setup journal Inv) act (Act.recorded act contact) where
  answer := by
    rintro o p ⟨events, hmirrors, -⟩
    rw [hmirrors.world]
    rfl
  kept := by
    rintro o p ⟨events, hmirrors, hinv⟩
    have hworld : (act o.world).2 = (act p.world.1).2 := by rw [hmirrors.world]
    exact ⟨events, { hmirrors with world := hworld },
      hkeeps.asked events p _ _ (hcontact _) hinv⟩

theorem traced (hkeeps : Keeps setup Inv) {o : Outside σ} {p : Outside (σ × List Contact)}
    (h : Watched setup journal Inv o p) (loc : Location) {kind : TraceKind}
    (hkind : kind.isFlow = true ∨
      (∃ name value, name ≠ lastOkName ∧ kind = .predicateEvaluated name value) ∨
      kind = .predicateEvaluated lastOkName (p.lastOk.getD true) ∨
      (∃ op, kind = .commandStarted p.ops op)) :
    Watched setup journal Inv (o.traced setup loc kind) (p.traced setup.watched loc kind) := by
  obtain ⟨events, hmirrors, hinv⟩ := h
  have hstamp : o.journal.createdAt = p.journal.createdAt := by
    rw [hmirrors.journal, hmirrors.heard, Journal.noteAll_createdAt, Journal.noteAll_createdAt]
  refine ⟨events ++ [.trace ⟨p.journal.createdAt, loc, kind⟩], ?_,
    hkeeps.traced events p _ hkind hinv⟩
  have hheard : (p.journal.trace ⟨p.journal.createdAt, loc, kind⟩) =
      journal.noteAll (events ++ [.trace ⟨p.journal.createdAt, loc, kind⟩]) := by
    rw [Journal.noteAll_concat, ← hmirrors.heard, Journal.trace_eq]
  unfold Outside.traced
  split
  · next htrace =>
    refine { hmirrors with heard := hheard, journal := ?_ }
    have hall : ∀ list, published setup.options list = list := by
      intro list
      unfold published
      rw [if_pos htrace]
    have hold := hmirrors.journal
    rw [hall] at hold
    change o.journal.trace _ = _
    rw [hall, Journal.noteAll_concat, ← hold, hstamp, Journal.trace_eq]
  · next htrace =>
    refine { hmirrors with heard := hheard, journal := ?_ }
    have hnone : published setup.options [.trace ⟨p.journal.createdAt, loc, kind⟩] = [] := by
      unfold published
      rw [if_neg htrace]
      rfl
    rw [published_append, hnone, List.append_nil]
    exact hmirrors.journal

theorem concluded (hkeeps : Keeps setup Inv) {o : Outside σ} {p : Outside (σ × List Contact)}
    (h : Watched setup journal Inv o p) (hops : o.ops < setup.options.opLimit) {op : String}
    {result : StepResult} (hresult : result.opIndex = o.ops ∧ result.op = op) (world : σ)
    {footprint : List Contact} (hfootprint : Footprint result footprint) :
    Watched setup journal Inv (o.concluded op result world)
      (p.concluded op result (world, footprint.reverse ++ p.world.2)) := by
  obtain ⟨events, hmirrors, hinv⟩ := h
  have hcount := hmirrors.ops
  refine ⟨events ++ [.step result], ?_,
    hkeeps.concluded events p op result world footprint (hcount ▸ hops) (hresult.1.trans hcount)
      hresult.2 hfootprint hinv⟩
  exact
    { world := rfl
      results := congrArg (result :: ·) hmirrors.results
      ops := congrArg (· + 1) hcount
      lastOk := rfl
      lastOp := rfl
      heard := by
        rw [Journal.noteAll_concat, ← hmirrors.heard]
        rfl
      journal := by
        rw [published_append, published_step, Journal.noteAll_concat, ← hmirrors.journal]
        rfl }

end Watched

section

variable {setup : Setup σ} (journal : Journal)
  {Inv : List Event → Outside (σ × List Contact) → Prop}

theorem predicate?_watched (setup : Setup σ) (name : String) :
    setup.watched.context.registry.predicate? name =
      (setup.context.registry.predicate? name).map (PredicateHandler.recorded name) :=
  Dict.get?_mapValues ..

theorem command?_watched (setup : Setup σ) (name : String) :
    setup.watched.context.registry.command? name =
      (setup.context.registry.command? name).map (CommandHandler.recorded name) :=
  Dict.get?_mapValues ..

theorem hasCommand_watched (setup : Setup σ) (name : String) :
    setup.watched.context.registry.hasCommand name = setup.context.registry.hasCommand name := by
  have hsame := congrArg Option.isSome (command?_watched setup name)
  rwa [Option.isSome_map] at hsame

theorem sameSight_watched (hkeeps : Keeps setup Inv) :
    SameSight setup setup.watched (Watched setup journal Inv) (fun _ _ _ => False) where
  actor := rfl
  ops := by
    rintro o p ⟨events, hmirrors, -⟩
    exact hmirrors.ops
  lastOp := by
    rintro o p ⟨events, hmirrors, -⟩
    exact hmirrors.lastOp
  lastOk := by
    rintro o p ⟨events, hmirrors, -⟩
    exact hmirrors.lastOk
  stamp := by
    rintro o p ⟨events, hmirrors, -⟩
    rw [hmirrors.journal, hmirrors.heard, Journal.noteAll_createdAt, Journal.noteAll_createdAt]
  pose := Watched.asks hkeeps _ fun _ => rfl
  search := fun _ _ => Watched.asks hkeeps _ fun _ => rfl
  waypoint := fun _ => Watched.asks hkeeps _ fun _ => rfl
  predicate := fun name => by
    rw [predicate?_watched]
    cases setup.context.registry.predicate? name with
    | none => exact .none
    | some handler => exact .some fun _ => Watched.asks hkeeps _ fun _ => rfl
  told := fun loc name value o p hname h =>
    h.traced hkeeps loc (.inr (.inl ⟨name, value, hname, rfl⟩))
  toldLastOk := fun loc o p h => by
    have hsame : o.lastOk = p.lastOk := by
      obtain ⟨events, hmirrors, -⟩ := h
      exact hmirrors.lastOk
    rw [hsame]
    exact h.traced hkeeps loc (.inr (.inr (.inl rfl)))
  cutWorld := fun _ _ _ _ h => h
  cutTraced := fun _ _ _ _ _ h => h

theorem sameCommand_watched (hkeeps : Keeps setup Inv) (call : CommandCall)
    (handler : CommandHandler σ) :
    SameCommand setup setup.watched (Watched setup journal Inv) (fun _ _ _ => False) call handler
      (handler.recorded call.name) where
  cancelled := Watched.asks hkeeps _ fun _ => rfl
  opLimit := Nat.le_refl _
  opCut := fun hlt => absurd hlt (Nat.lt_irrefl _)
  started := fun o p h => by
    have hsame : o.ops = p.ops := (sameSight_watched journal hkeeps).ops o p h
    rw [hsame]
    exact h.traced hkeeps call.loc (.inr (.inr (.inr ⟨call.name, rfl⟩)))
  autoScan := rfl
  needsScan := Watched.asks hkeeps _ fun _ => rfl
  scan := Watched.asks hkeeps _ fun _ => rfl
  stopOnFailure := rfl
  settles := fun o p prepared h hops => by
    have hcount : o.ops = p.ops := (sameSight_watched journal hkeeps).ops o p h
    have hstamp : o.journal.createdAt = p.journal.createdAt :=
      (sameSight_watched journal hkeeps).stamp o p h
    have hworld : o.world = p.world.1 := by
      obtain ⟨events, hmirrors, -⟩ := h
      exact hmirrors.world
    obtain ⟨footprint, hfootprint, hsettle⟩ :=
      settle_recorded call handler o.ops o.journal.createdAt prepared p.world
    rw [← hcount, ← hstamp, hsettle, hworld]
    exact ⟨rfl, h.concluded hkeeps hops (settle_of_call ..) _ hfootprint⟩
  cutConcluded := fun _ _ _ _ _ h => h

theorem sameCourse_watched (hkeeps : Keeps setup Inv) :
    SameCourse setup setup.watched (Watched setup journal Inv) (fun _ _ _ => False) :=
  { sameSight_watched journal hkeeps with
    cancelled := Watched.asks hkeeps _ fun _ => rfl
    function := fun _ => Watched.asks hkeeps _ fun _ => rfl
    command := fun call => by
      rw [command?_watched]
      cases setup.context.registry.command? call.name with
      | none => exact .none
      | some handler =>
        exact .some fun _ hR => (sameCommand_watched journal hkeeps call handler).dispatch
          (sameSight_watched journal hkeeps) hR
    flow := fun loc _ _ _ hflow h => h.traced hkeeps loc (.inl hflow)
    iterationLimit := Nat.le_refl _
    iterationCut := fun hlt => absurd hlt (Nat.lt_irrefl _)
    callDepth := Nat.le_refl _
    depthCut := fun hlt => absurd hlt (Nat.lt_irrefl _) }

/-- A run and the watched run end alike, and what every step keeps holds at the end. -/
theorem watched_body (hkeeps : Keeps setup Inv) (program : Program) (world : σ)
    (hstart : Inv [] (start journal (world, ([] : List Contact))).outside) :
    ∃ answer s t,
      body setup program (start journal world) = (answer, s) ∧
      body setup.watched program (start journal (world, [])) = (answer, t) ∧
      Watched setup journal.start Inv s.outside t.outside := by
  have hfollows := (sameCourse_watched journal.start hkeeps).body (Alike.tracks _) program 0
  have hpublished : published setup.options [] = [] := by
    unfold published
    split <;> rfl
  have hmirrors : Mirrors setup.options journal.start [] (start journal world).outside
      (start journal (world, ([] : List Contact))).outside :=
    ⟨rfl, rfl, rfl, rfl, rfl, rfl, by rw [hpublished]; rfl⟩
  have hagree := hfollows.agree (start journal world) (start journal (world, []))
    ⟨⟨[], hmirrors, hstart⟩, rfl, rfl, rfl, rfl, rfl⟩
  generalize body setup program (start journal world) = first,
    body setup.watched program (start journal (world, [])) = second at hagree
  cases hagree with
  | @both answer s t hst => exact ⟨answer, s, t, rfl, rfl, hst.outside⟩
  | cut hcut => exact hcut.elim

end

/-! ## Whole runs -/

theorem keeps_nothing (setup : Setup σ) : Keeps setup fun _ _ => True :=
  ⟨fun _ _ _ _ _ _ => trivial, fun _ _ _ _ _ => trivial,
    fun _ _ _ _ _ _ _ _ _ _ _ => trivial⟩

theorem Mirrors.reportOf_eq {options : RunOptions} {journal : Journal} {events : List Event}
    {s : State σ} {t : State (σ × List Contact)}
    (h : Mirrors options journal events s.outside t.outside) (outcome : Outcome) :
    reportOf s outcome = reportOf t outcome := by
  have hresults : s.results = t.results := h.results
  have hops : s.ops = t.ops := h.ops
  have hs : s.journal = journal.noteAll (published options events) := h.journal
  have ht : t.journal = journal.noteAll events := h.heard
  unfold reportOf
  rw [hresults, hops, hs, ht, Journal.noteAll_runId, Journal.noteAll_runId,
    Journal.noteAll_correlationId, Journal.noteAll_correlationId]

/-- The watched run ends as the run does. -/
theorem program_watched (setup : Setup σ) (program : Program) (journal : Journal) (world : σ) :
    let run := Run.program setup program journal world
    let seen := Run.program setup.watched program journal (world, [])
    seen.1 = run.1 ∧ seen.2.world.1 = run.2.world := by
  obtain ⟨answer, s, t, hrun, hseen, events, hmirrors, -⟩ :=
    watched_body journal (keeps_nothing setup) program world trivial
  dsimp only [Run.program]
  rw [hrun, hseen]
  exact ⟨(hmirrors.reportOf_eq _).symm, hmirrors.world.symm⟩

end Run

end BlockScript
