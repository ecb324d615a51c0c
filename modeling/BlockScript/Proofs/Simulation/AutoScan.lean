import BlockScript.Proofs.Run.Observation
import BlockScript.Proofs.Simulation.Registered
import BlockScript.Proofs.Simulation.ScanCount

/-!
# Scans before commands

In the simulated world a scan is counted and changes nothing else, and nothing that a run asks of
the world depends on the count. So of two runs of a program, one with scans before the commands that
need them and one without, both give the same report and leave the same world behind, but for the
count. It is ahead by the number of commands for which the one run came to its scan. Only a scan that
finds the count full would cut the one run off, and the other run goes on.
-/
namespace BlockScript
set_option autoImplicit false

/-! ## Acts beside stores -/

variable {σ ρ α : Type}

/-- An act on the first of two states. -/
def Act.onFirst (act : Act σ α) : Act (σ × ρ) α := fun both =>
  ((act both.1).1, (act both.1).2, both.2)

/-- An act on the second of two states. -/
def Act.onSecond (act : Act ρ α) : Act (σ × ρ) α := fun both =>
  ((act both.2).1, both.1, (act both.2).2)

def CommandHandler.onFirst (handler : CommandHandler σ) : CommandHandler (σ × ρ) where
  validate := fun args => Act.onFirst (handler.validate args)
  needsScan := Act.onFirst handler.needsScan
  execute := fun args => Act.onFirst (handler.execute args)

def PredicateHandler.onFirst (handler : PredicateHandler σ) : PredicateHandler (σ × ρ) where
  evaluate := fun args => Act.onFirst (handler.evaluate args)

def Probe.onFirst (probe : Probe σ) : Probe (σ × ρ) where
  pose := Act.onFirst probe.pose
  blockAt := fun position => Act.onFirst (probe.blockAt position)
  scan := fun radius => Act.onFirst (probe.scan radius)
  findBlock := fun query origin radius => Act.onFirst (probe.findBlock query origin radius)

/-- The result of a command beside stores is its result without them. -/
theorem Run.settle_onFirst (call : CommandCall) (handler : CommandHandler σ) (opIndex : Nat)
    (stamp : Timestamp) (prepared : Prepared) :
    settle call (handler.onFirst : CommandHandler (σ × ρ)) opIndex stamp prepared =
      Act.onFirst (settle call handler opIndex stamp prepared) := by
  funext both
  cases prepared with
  | lookupFailed message notes => rfl
  | ready args notes =>
    dsimp only [settle, Act.onFirst, attempt, CommandHandler.onFirst]
    cases handler.validate args both.1 with
    | mk answer after => cases answer <;> rfl

namespace Simulation

/-! ## Runs that scan and runs that do not -/

/-- Stores and a sign to stop, which remember what they like apart from the world. -/
structure Stores (ρ : Type) where
  waypoint : String → WaypointLookup ρ
  function : String → String → Act ρ (Except StoreError (Option StoredFunction))
  cancelled : Act ρ Bool

/-- The simulated world with its commands and predicates, beside stores. -/
def Stores.context (stores : Stores ρ)
    (registry : Registry (CommandHandler (Live World)) (PredicateHandler (Live World))) :
    Context (Live World × ρ) where
  registry :=
    { commands := registry.commands.mapValues fun _ handler => handler.onFirst
      predicates := registry.predicates.mapValues fun _ handler => handler.onFirst }
  probe := World.probe.onFirst
  waypoint := fun actor name => Act.onSecond (stores.waypoint actor name)
  function := fun actor name => Act.onSecond (stores.function actor name)
  cancelled := Act.onSecond stores.cancelled

/-- The names of the commands that are worth a scan. -/
def scannedBefore : List String := ["move", "dig", "break", "place"]

end Simulation

/-- A command that has come to its scan and asks for one. -/
def Contact.asksScan : Contact → Bool
  | needsScan op _ => Simulation.scannedBefore.contains op
  | _ => false

namespace Simulation

open Run

theorem Op.needsScan_of_table : ∀ entry ∈ Op.table,
    entry.2.needsScan = scannedBefore.contains entry.1 := by
  decide

/-- The outside of a run that has scanned, beside that of one that has not. The first world is ahead
by one scan for every command that has asked for one. -/
structure Ahead (o p : Outside ((Live World × ρ) × List Contact)) : Prop where
  world : AheadBy (o.world.2.countP Contact.asksScan) o.world.1.1 p.world.1.1
  stores : o.world.1.2 = p.world.1.2
  journal : o.journal = p.journal
  results : o.results = p.results
  ops : o.ops = p.ops
  lastOk : o.lastOk = p.lastOk
  lastOp : o.lastOp = p.lastOp

/-- The run that scans has been stopped at a full count. -/
def ScansFull (_ : Termination) (o _ : Outside ((Live World × ρ) × List Contact)) : Prop :=
  o.world.1.1 = .error .scanCount

namespace Ahead

variable {o p : Outside ((Live World × ρ) × List Contact)}

theorem countP_cons {contact : Contact} (hcontact : contact.asksScan = false)
    (seen : List Contact) :
    (contact :: seen).countP Contact.asksScan = seen.countP Contact.asksScan :=
  List.countP_cons_of_neg (by rw [hcontact]; decide)

theorem asksWorld {act : Act (Live World) α} (hact : Steady act) {contact : α → Contact}
    (hcontact : ∀ answer, (contact answer).asksScan = false) :
    AsksAlike Ahead (Act.recorded (act.onFirst : Act (Live World × ρ) α) contact)
      (Act.recorded act.onFirst contact) where
  answer := fun o p h => (hact h.world).1
  kept := fun o p h =>
    { h with
      world := by
        dsimp only [Act.recorded, Act.onFirst]
        rw [countP_cons (hcontact _)]
        exact (hact h.world).2 }

theorem asksStores (act : Act ρ α) {contact : α → Contact}
    (hcontact : ∀ answer, (contact answer).asksScan = false) :
    AsksAlike Ahead (Act.recorded act.onSecond contact) (Act.recorded act.onSecond contact) where
  answer := fun o p h => congrArg (fun rest => (act rest).1) h.stores
  kept := fun o p h =>
    { h with
      world := by
        dsimp only [Act.recorded, Act.onSecond]
        rw [countP_cons (hcontact _)]
        exact h.world
      stores := congrArg (fun rest => (act rest).2) h.stores }

/-- Both runs are watched, so both publish every trace. -/
theorem traced {a b : Setup (Live World × ρ)} (h : Ahead o p) (loc : Location) (kind : TraceKind) :
    Ahead (o.traced a.watched loc kind) (p.traced b.watched loc kind) := by
  have htold : ∀ (setup : Setup (Live World × ρ)) (o : Outside ((Live World × ρ) × List Contact)),
      o.traced setup.watched loc kind =
        { o with journal := o.journal.trace ⟨o.journal.createdAt, loc, kind⟩ } := fun _ _ => rfl
  rw [htold, htold, h.journal]
  exact { h with journal := rfl }

/-- The check and the action of a command ask for no scan. -/
theorem asksScan_of_footprint {result : StepResult} {footprint : List Contact}
    (h : Footprint result footprint) : ∀ contact ∈ footprint, contact.asksScan = false := by
  intro contact hcontact
  cases h with
  | lookup => cases hcontact
  | refused =>
    cases List.mem_singleton.1 hcontact
    rfl
  | executed =>
    rcases List.mem_cons.1 hcontact with rfl | hlast
    · rfl
    · cases List.mem_singleton.1 hlast
      rfl

theorem concluded (h : Ahead o p) (op : String) (result : StepResult) {footprint : List Contact}
    (hfootprint : Footprint result footprint) {first second : Live World}
    (hworld : AheadBy (o.world.2.countP Contact.asksScan) first second) (seen : List Contact) :
    Ahead
      (o.concluded op result ((first, o.world.1.2), footprint.reverse ++ o.world.2))
      (p.concluded op result ((second, p.world.1.2), seen)) where
  world := by
    have hnone : footprint.reverse.countP Contact.asksScan = 0 :=
      List.countP_eq_zero.2 fun contact hcontact => by
        rw [asksScan_of_footprint hfootprint contact (List.mem_reverse.1 hcontact)]
        decide
    dsimp only [Outside.concluded]
    rw [List.countP_append, hnone, Nat.zero_add]
    exact hworld
  stores := h.stores
  journal := congrArg (·.record result) h.journal
  results := congrArg (result :: ·) h.results
  ops := congrArg (· + 1) h.ops
  lastOk := rfl
  lastOp := rfl

end Ahead

section

variable (stores : Stores ρ) (options : RunOptions)
  {registry : Registry (CommandHandler (Live World)) (PredicateHandler (Live World))}

/-- A run in the simulated world, with scans before commands or without. -/
def setup (registry : Registry (CommandHandler (Live World)) (PredicateHandler (Live World)))
    (auto : Bool) : Setup (Live World × ρ) :=
  ⟨stores.context registry, { options with autoScan := auto }⟩

theorem command?_setup (auto : Bool) (name : String) :
    (setup stores options registry auto).context.registry.command? name =
      (registry.command? name).map CommandHandler.onFirst :=
  Dict.get?_mapValues ..

theorem predicate?_setup (auto : Bool) (name : String) :
    (setup stores options registry auto).context.registry.predicate? name =
      (registry.predicate? name).map PredicateHandler.onFirst :=
  Dict.get?_mapValues ..

theorem sameSight (h : Tabled registry) :
    SameSight (setup stores options registry true).watched
      (setup stores options registry false).watched Ahead ScansFull where
  actor := rfl
  ops := fun _ _ h => h.ops
  lastOp := fun _ _ h => h.lastOp
  lastOk := fun _ _ h => h.lastOk
  stamp := fun _ _ h => congrArg Journal.createdAt h.journal
  pose := Ahead.asksWorld World.pose_steady fun _ => rfl
  search := fun query origin =>
    Ahead.asksWorld (World.findBlock_steady query origin _) fun _ => rfl
  waypoint := fun _ => Ahead.asksStores _ fun _ => rfl
  predicate := fun name => by
    rw [predicate?_watched, predicate?_watched, predicate?_setup, predicate?_setup]
    cases hfound : registry.predicate? name with
    | none => exact .none
    | some handler =>
      obtain ⟨check, -, rfl⟩ := h.predicate name handler hfound
      exact .some fun args => Ahead.asksWorld (check.evaluate_steady args) fun _ => rfl
  told := fun loc _ _ _ _ _ h => h.traced loc _
  toldLastOk := fun loc o p h => by
    rw [h.lastOk]
    exact h.traced loc _
  cutWorld := fun _ _ _ _ h => h
  cutTraced := fun _ _ _ _ _ h => h

/-- What the run asks of the world is written down and leaves the stores alone. -/
theorem ask_first {act : Act (Live World) α} {contact : α → Contact}
    {s : State ((Live World × ρ) × List Contact)} {answer : α} {after : Live World}
    (h : act s.world.1.1 = (answer, after)) :
    Run.ask (Act.recorded act.onFirst contact) s =
      (.ok answer, s.withOutside
        { s.outside with world := ((after, s.world.1.2), contact answer :: s.world.2) }) := by
  rw [ask_eq]
  dsimp only [Act.recorded, Act.onFirst]
  rw [h]

/-- A run that comes to the scan of a command scans exactly if the command asks for it, and is cut off
if the count is full. -/
theorem autoScan_counts (loc : Location) {name : String} {op : Op} (hop : (name, op) ∈ Op.table)
    (s : State ((Live World × ρ) × List Contact)) {second : Live World}
    (h : AheadBy (s.world.2.countP Contact.asksScan) s.world.1.1 second) :
    ∃ answer world,
      Run.autoScan (setup stores options registry true).watched loc
          (op.handler.onFirst.recorded name) s =
        (answer, s.withOutside { s.outside with world := world }) ∧
      ((∃ x, answer = .error x) ∧ world.1.1 = .error .scanCount ∨
        answer = .ok () ∧ world.1.2 = s.world.1.2 ∧
          AheadBy (world.2.countP Contact.asksScan) world.1.1 second) := by
  have hasks : ∀ needed, (Contact.needsScan name needed).asksScan = op.needsScan :=
    fun _ => (Op.needsScan_of_table _ hop).symm
  change ∃ answer world, (Run.ask (op.handler.onFirst.recorded name).needsScan >>= _) s = _ ∧ _
  cases hlive : s.world.1.1 with
  | error what =>
    have hasked : Run.ask (op.handler.onFirst.recorded name).needsScan s = (.ok false, _) :=
      ask_first (by rw [hlive]; rfl)
    rw [hlive] at h
    cases h
    exact ⟨.ok (), _, (bind_ok hasked).trans rfl, .inr ⟨rfl, rfl, .stopped what⟩⟩
  | ok world =>
    have hasked : Run.ask (op.handler.onFirst.recorded name).needsScan s = (.ok op.needsScan, _) :=
      ask_first (by rw [hlive]; rfl)
    rw [hlive] at h
    cases hneeds : op.needsScan with
    | false =>
      rw [hneeds] at hasked
      refine ⟨.ok (), _, (bind_ok hasked).trans rfl, .inr ⟨rfl, rfl, ?_⟩⟩
      rw [Ahead.countP_cons ((hasks false).trans hneeds)]
      exact h
    | true =>
      rw [hneeds] at hasked
      rcases h.scanned options.defaultScanRadius with hfull | ⟨after, hscan, hahead⟩
      · exact ⟨_, _, (bind_ok hasked).trans ((bind_ok (ask_first hfull)).trans rfl),
          .inl ⟨⟨_, rfl⟩, rfl⟩⟩
      · refine ⟨.ok (), ((.ok after, s.world.1.2), .scanned options.defaultScanRadius (.ok ()) ::
            .needsScan name true :: s.world.2),
          (bind_ok hasked).trans ((bind_ok (ask_first hscan)).trans rfl), .inr ⟨rfl, rfl, ?_⟩⟩
        rw [Ahead.countP_cons rfl, List.countP_cons_of_pos ((hasks true).trans hneeds)]
        exact hahead

theorem scansAlike (loc : Location) {name : String} {op : Op} (hop : (name, op) ∈ Op.table) :
    ScansAlike (setup stores options registry true).watched
      (setup stores options registry false).watched Ahead ScansFull loc
      (op.handler.onFirst.recorded name) (op.handler.onFirst.recorded name) := by
  refine fun k R hR => ⟨fun s t hst => ?_, fun _ _ _ h => h⟩
  obtain ⟨hahead, hops⟩ := hR.outside hst
  obtain ⟨answer, world, hscan, ⟨⟨x, rfl⟩, hfull⟩ | ⟨rfl, hstores, hworld⟩⟩ :=
    autoScan_counts stores options loc hop s hahead.world
  · rw [hscan]
    exact .cut hfull
  · rw [hscan]
    have hafter : Ahead { s.outside with world := world } t.outside :=
      { hahead with world := hworld, stores := hstores.trans hahead.stores }
    exact .both (hR.update hst ⟨hafter, hops⟩)

/-- A command has the same result in both runs, unless it is a scan that finds the count of the first
full. Then it has lost its connection, which ends the run. -/
theorem concludes (h : Tabled registry) (call : CommandCall) (op : Op)
    {R : State ((Live World × ρ) × List Contact) → State ((Live World × ρ) × List Contact) → Prop}
    (hR : Shows R Ahead) :
    Concludes (setup stores options registry true).watched
      (setup stores options registry false).watched R ScansFull call
      (op.handler.onFirst.recorded call.name) (op.handler.onFirst.recorded call.name) := by
  refine ⟨fun prepared s t hst _ => ?_, fun opIndex prepared x o t hcut => ?_⟩
  · have hahead := hR.outside hst
    obtain ⟨footprint, hfootprint, hsettle⟩ := settle_recorded call op.handler.onFirst s.ops
      s.journal.createdAt prepared s.world
    obtain ⟨footprint', -, hsettle'⟩ := settle_recorded call op.handler.onFirst t.ops
      t.journal.createdAt prepared t.world
    have hops : s.ops = t.ops := hahead.ops
    have hjournal : s.journal = t.journal := hahead.journal
    have hworld : AheadBy (s.world.2.countP Contact.asksScan) s.world.1.1 t.world.1.1 :=
      hahead.world
    rw [settle_onFirst] at hsettle hsettle' hfootprint
    rw [← hops, ← hjournal] at hsettle'
    rw [conclude_eq, conclude_eq, ← hops, ← hjournal, hsettle, hsettle']
    dsimp only [Act.onFirst] at hfootprint ⊢
    rcases op.settle_steady call s.ops s.journal.createdAt prepared hworld with
      ⟨step, hfull, hkind⟩ | ⟨hsame, hkept⟩
    · rw [hfull]
      simp only [Run.afterResult, hkind, true_or, if_true]
      exact .cut rfl
    · rw [← hsame]
      have hafter := hR.update hst (hahead.concluded call.name _ hfootprint hkept
        (footprint'.reverse ++ t.world.2))
      exact .of_eq ((sameSight stores options h).afterResult rfl call.loc (hR.outside hafter) rfl)
        hafter
  · rw [conclude_eq]
    exact hcut

theorem sameEntry (call : CommandCall) :
    SameEntry (setup stores options registry true).watched
      (setup stores options registry false).watched Ahead ScansFull call where
  cancelled := Ahead.asksStores _ fun _ => rfl
  opLimit := Nat.le_refl _
  opCut := fun hlt => absurd hlt (Nat.lt_irrefl _)
  started := fun o p h => by
    rw [h.ops]
    exact h.traced _ _

theorem sameCourse (h : Tabled registry) :
    SameCourse (setup stores options registry true).watched
      (setup stores options registry false).watched Ahead ScansFull :=
  { sameSight stores options h with
    cancelled := Ahead.asksStores _ fun _ => rfl
    function := fun _ => Ahead.asksStores _ fun _ => rfl
    command := fun call => by
      rw [command?_watched, command?_watched, command?_setup, command?_setup]
      cases hfound : registry.command? call.name with
      | none => exact .none
      | some handler =>
        obtain ⟨op, hop, rfl⟩ := h.command call.name handler hfound
        refine .some fun R hR => ?_
        exact (sameEntry stores options call).dispatch_of_vars (sameSight stores options h)
          (scansAlike stores options call.loc hop) hR (hR.showsVars _)
          (concludes stores options h call op hR)
    flow := fun loc kind _ _ _ h => h.traced loc kind
    iterationLimit := Nat.le_refl _
    iterationCut := fun hlt => absurd hlt (Nat.lt_irrefl _)
    callDepth := Nat.le_refl _
    depthCut := fun hlt => absurd hlt (Nat.lt_irrefl _) }

end

/-- Both watched runs give the same report, and the one that scans is ahead of the other, unless it
has been cut off at a full count. -/
theorem ahead_of_program
    {registry : Registry (CommandHandler (Live World)) (PredicateHandler (Live World))}
    (h : Tabled registry) (stores : Stores ρ) (options : RunOptions) (program : Program)
    (journal : Journal) (world : World) (rest : ρ) :
    let on := Run.program (setup stores options registry true).watched program journal
      ((.ok world, rest), [])
    let off := Run.program (setup stores options registry false).watched program journal
      ((.ok world, rest), [])
    on.2.world.1.1 ≠ .error .scanCount →
      on.1 = off.1 ∧ on.2.world.1.2 = off.2.world.1.2 ∧
        AheadBy (on.2.world.2.countP Contact.asksScan) on.2.world.1.1 off.2.world.1.1 := by
  intro on off hfits
  have hstart : Ahead (start journal ((.ok world, rest), ([] : List Contact))).outside
      (start journal ((.ok world, rest), ([] : List Contact))).outside :=
    ⟨.refl _, rfl, rfl, rfl, rfl, rfl, rfl⟩
  have hagree := ((sameCourse stores options h).body (Alike.tracks _) program 0).agree
    (start journal ((.ok world, rest), [])) (start journal ((.ok world, rest), []))
    ⟨hstart, rfl, rfl, rfl, rfl, rfl⟩
  dsimp only [on, off, Run.program] at hfits ⊢
  generalize body (setup stores options registry true).watched program _ = first,
    body (setup stores options registry false).watched program _ = second at hagree hfits ⊢
  cases hagree with
  | @both answer s t hst =>
    refine ⟨?_, hst.outside.stores, hst.outside.world⟩
    have hresults : s.results = t.results := hst.outside.results
    have hops : s.ops = t.ops := hst.outside.ops
    have hjournal : s.journal = t.journal := hst.outside.journal
    change reportOf s _ = reportOf t _
    unfold reportOf
    rw [hresults, hops, hjournal]
  | cut hcut => exact absurd hcut hfits

/-- Scans before commands are counted and have no other effect. For every program, with any stores
beside the simulated world, the runs with and without such scans give the same report and leave the
same stores and the same world behind, but for the count of scans, as long as no scan finds the count
full. The count is ahead by the number of times that a `move`, `dig`, `break` or `place` has come to its
scan. -/
theorem autoScan_only_counts (stores : Stores ρ) (options : RunOptions) (program : Program)
    (journal : Journal) (world : World) (rest : ρ) :
    ∃ registry, Simulation.registry = .ok registry ∧
      let setup := setup stores options registry
      let on := Run.program (setup true) program journal (.ok world, rest)
      let off := Run.program (setup false) program journal (.ok world, rest)
      let seen := Run.program (setup true).watched program journal ((.ok world, rest), [])
      on.2.world.1 ≠ .error .scanCount →
        on.1 = off.1 ∧ on.2.world.2 = off.2.world.2 ∧
          AheadBy (seen.2.world.2.countP Contact.asksScan) on.2.world.1 off.2.world.1 := by
  obtain ⟨registry, hregistry⟩ := registry_eq_ok
  refine ⟨registry, hregistry, ?_⟩
  intro setup on off seen hfits
  obtain ⟨honReport, honWorld⟩ :=
    program_watched (setup true) program journal (.ok world, rest)
  obtain ⟨hoffReport, hoffWorld⟩ :=
    program_watched (setup false) program journal (.ok world, rest)
  obtain ⟨hreport, hstores, hahead⟩ := ahead_of_program (tabled_of_registry hregistry) stores options
    program journal world rest (honWorld.symm ▸ hfits)
  rw [honWorld, hoffWorld] at hstores hahead
  exact ⟨honReport.symm.trans (hreport.trans hoffReport), hstores, hahead⟩

/-- Stores that keep nothing, and no sign to stop. -/
def Stores.empty : Stores Unit :=
  ⟨fun _ _ rest => (.ok none, rest), fun _ _ rest => (.ok none, rest), fun rest => (false, rest)⟩

/-- The scan of the script counts in both runs, those before the dig and the move that fails only in
one. -/
theorem autoScan_only_counts_dig :
    ∃ registry program, Simulation.registry = .ok registry ∧
      parse "dig(world(1, 63, 0)); scan(); move(1);" = .ok program ∧
      let on := Run.program (setup Stores.empty {} registry true) program default
        (.ok World.flat, ())
      let off := Run.program (setup Stores.empty {} registry false) program default
        (.ok World.flat, ())
      on.2.world.1.toOption.map World.scans = some 3 ∧
        off.2.world.1.toOption.map World.scans = some 1 ∧ on.1 = off.1 ∧
        AheadBy 2 on.2.world.1 off.2.world.1 := by
  have hread : (parse "dig(world(1, 63, 0)); scan(); move(1);").toBool = true := by decide +kernel
  have hrun :
      Simulation.registry.toOption.bind (fun registry =>
        (parse "dig(world(1, 63, 0)); scan(); move(1);").toOption.map fun program =>
          let setup := setup Stores.empty {} registry
          let world auto :=
            (Run.program (setup auto) program default (.ok World.flat, ())).2.world.1.toOption
          let seen := Run.program (setup true).watched program default ((.ok World.flat, ()), [])
          ((world true).map World.scans, (world false).map World.scans,
            seen.2.world.2.countP Contact.asksScan)) = some (some 3, some 1, 2) := by
    decide +kernel
  cases hparse : parse "dig(world(1, 63, 0)); scan(); move(1);" with
  | error error =>
    rw [hparse] at hread
    cases hread
  | ok program =>
    obtain ⟨registry, hregistry, hcounts⟩ :=
      autoScan_only_counts Stores.empty {} program default World.flat ()
    rw [hregistry, hparse] at hrun
    simp only [Except.toOption, Option.bind_some, Option.map_some, Option.some.injEq,
      Prod.mk.injEq] at hrun
    obtain ⟨hon, hoff, hasked⟩ := hrun
    have hfits : (Run.program (setup Stores.empty {} registry true) program default
        (.ok World.flat, ())).2.world.1 ≠ .error .scanCount := by
      intro hfull
      rw [hfull] at hon
      cases hon
    obtain ⟨hreport, -, hahead⟩ := hcounts hfits
    rw [hasked] at hahead
    exact ⟨registry, program, hregistry, rfl, hon, hoff, hreport, hahead⟩

end Simulation

end BlockScript
