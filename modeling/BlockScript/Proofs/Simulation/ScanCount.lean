import BlockScript.Proofs.Run.Commands
import BlockScript.Proofs.Simulation.Commands

/-!
# The count of scans

A scan is counted and changes nothing else, and no command, predicate or reading of the simulated world
depends on the count. So whatever is asked of two worlds, of which one has been scanned more often, is
answered alike and leaves the one ahead by as many scans as before. Only another scan may tell them
apart, when it finds the count of the first full.
-/
namespace BlockScript
set_option autoImplicit false

variable {σ ε α β : Type}

/-- An act that answers the same after a change of the state, and leaves that change in place. -/
def Act.Commutes (change : σ → σ) (act : Act σ α) : Prop :=
  ∀ state, act (change state) = ((act state).1, change (act state).2)

namespace Attempt

/-- An attempt is an act as well. -/
def Commutes (change : σ → σ) (attempt : Attempt σ ε α) : Prop := Act.Commutes change attempt

namespace Commutes

variable {shift : σ → σ}

theorem pure (a : α) : Commutes shift (Pure.pure a : Attempt σ ε α) := fun _ => rfl

theorem require (answer : Except ε α) : Commutes shift (require answer : Attempt σ ε α) :=
  fun _ => rfl

theorem ensure (condition : Bool) (error : ε) :
    Commutes shift (ensure condition error : Attempt σ ε Unit) := fun _ => rfl

theorem checked (what : Overflow) (result : Option α) :
    Commutes shift (checked what result : Attempt σ ε α) := fun _ => rfl

theorem change {f : σ → σ} (h : ∀ state, f (shift state) = shift (f state)) :
    Commutes shift (change f : Attempt σ ε Unit) := fun state => congrArg (Prod.mk _) (h state)

theorem ofAct {act : Act σ (Except ε α)} (h : Act.Commutes shift act) :
    Commutes shift (ofAct act) := by
  intro state
  unfold Attempt.ofAct
  rw [h state]

theorem bind {step : Attempt σ ε α} {next : α → Attempt σ ε β} (hstep : Commutes shift step)
    (hnext : ∀ a, Commutes shift (next a)) : Commutes shift (step >>= next) := by
  intro state
  have hshifted := hstep state
  cases h : step state with
  | mk answer between =>
    rw [h] at hshifted
    cases answer with
    | ok a => rw [bind_ok h, bind_ok hshifted, hnext a between]
    | error interruption => rw [bind_error h, bind_error hshifted]

/-- The state may be read if the change does not show in what follows. -/
theorem get_bind {next : σ → Attempt σ ε α} (hnext : ∀ state, Commutes shift (next state))
    (hsame : ∀ state, next (shift state) = next state) : Commutes shift (get >>= next) := by
  intro state
  rw [Attempt.get_bind, Attempt.get_bind, hsame]
  exact hnext state state

/-- A search goes along with what its readings go along with. -/
theorem nearest {blockAt : Position → Act σ (Except ProbeError (Option Block))}
    (h : ∀ position, Act.Commutes shift (blockAt position)) (query : Query) (origin : Position)
    (positions : List Position) (best : Option Position) :
    Commutes shift (Search.nearest blockAt query origin positions best) := by
  induction positions generalizing best with
  | nil => exact .pure best
  | cons position rest ih =>
    exact .bind (.ofAct (h position)) fun block => .bind (.checked _ _) fun best => ih best

theorem find {blockAt : Position → Act σ (Except ProbeError (Option Block))}
    (h : ∀ position, Act.Commutes shift (blockAt position)) (query : Query) (origin : Position)
    (radius : UInt32) : Commutes shift (Search.find blockAt query origin radius) := by
  unfold Search.find
  cases query.pin with
  | none => exact .bind (.checked _ _) fun offsets => .nearest h query origin _ none
  | some position => exact .bind (.ofAct (h position)) fun block => .pure _

end Commutes

end Attempt

namespace Simulation

open Attempt

/-! ## Attempts on which the count has no bearing -/

def World.withScans (scans : UInt32) (world : World) : World := { world with scans }

section

variable (scans : UInt32)

theorem commutes_requireReach (target : Position) :
    Commutes (World.withScans scans) (requireReach target) :=
  .get_bind (fun _ => .bind (.checked _ _) fun _ => .ensure _ _) fun _ => rfl

theorem commutes_requireItem (item : String) :
    Commutes (World.withScans scans) (requireItem item) :=
  .get_bind (fun _ => .bind (.ensure _ _) fun _ => .pure _) fun _ => rfl

theorem commutes_giveItem (item : String) (count : UInt32) :
    Commutes (World.withScans scans) (World.giveItem item count : Attempt World Fault Unit) :=
  .get_bind (fun _ => .bind (.checked _ _) fun _ => .change fun _ => rfl) fun _ => rfl

namespace Op

variable (args : Arguments)

theorem commutes_executeMove : Commutes (World.withScans scans) (executeMove args) :=
  .bind (.require _) fun _ =>
    .get_bind (fun _ => .bind (.ensure _ _) fun _ => .bind (.change fun _ => rfl) fun _ => .pure _)
      fun _ => rfl

theorem commutes_executeTurn : Commutes (World.withScans scans) (executeTurn args) :=
  .bind (.require _) fun _ => .bind (.change fun _ => rfl) fun _ =>
    .get_bind (fun _ => .pure _) fun _ => rfl

theorem commutes_executeTurnFace : Commutes (World.withScans scans) (executeTurnFace args) :=
  .bind (.require _) fun _ => .bind (.change fun _ => rfl) fun _ => .pure _

theorem commutes_executeDig : Commutes (World.withScans scans) (executeDig args) :=
  .bind (.require _) fun target =>
    .get_bind
      (fun _ => .bind (.ensure _ _) fun _ => .bind (.ensure _ _) fun _ =>
        .bind (commutes_requireReach scans target) fun _ => .bind (.change fun _ => rfl) fun _ =>
          .bind (commutes_giveItem scans _ _) fun _ => .pure _)
      fun _ => rfl

theorem commutes_executePlace : Commutes (World.withScans scans) (executePlace args) :=
  .bind (.require _) fun _ => .bind (.require _) fun target =>
    .bind (commutes_requireItem scans _) fun _ =>
      .get_bind
        (fun _ => .bind (.ensure _ _) fun _ => .bind (commutes_requireReach scans target) fun _ =>
          .bind (.change fun _ => rfl) fun _ => .bind (.change fun _ => rfl) fun _ =>
            .bind (.change fun _ => rfl) fun _ => .pure _)
        fun _ => rfl

theorem commutes_executeEquip : Commutes (World.withScans scans) (executeEquip args) :=
  .bind (.require _) fun _ => .bind (commutes_requireItem scans _) fun _ =>
    .bind (.change fun _ => rfl) fun _ => .pure _

theorem commutes_executeLog : Commutes (World.withScans scans) (executeLog args) :=
  .bind (.change fun _ => rfl) fun _ => .pure _

/-- No command but a scan depends on the count of scans or changes it. -/
theorem commutes_execute {op : Op} (hop : op ≠ .scan) :
    Commutes (World.withScans scans) (op.execute args) := by
  cases op with
  | move => exact commutes_executeMove scans args
  | goto => exact commutes_executeMove scans args
  | turn => exact commutes_executeTurn scans args
  | turnFace => exact commutes_executeTurnFace scans args
  | dig => exact commutes_executeDig scans args
  | place => exact commutes_executePlace scans args
  | equip => exact commutes_executeEquip scans args
  | scan => exact absurd rfl hop
  | wait => exact .pure []
  | log => exact commutes_executeLog scans args

end Op

theorem Check.evaluate_withScans (args : Arguments) (world : World) (check : Check) :
    check.evaluate args (world.withScans scans) = check.evaluate args world := by
  cases check <;> rfl

end

/-! ## Worlds that are ahead by some scans -/

/-- Two worlds that differ in their scans only, of which the first has been scanned some more times;
or none, because the same overflow has stopped both programs. -/
inductive AheadBy (n : Nat) : Live World → Live World → Prop
  | running (world : World) (scans : UInt32) (h : scans.toNat = world.scans.toNat + n) :
    AheadBy n (.ok (world.withScans scans)) (.ok world)
  | stopped (what : Overflow) : AheadBy n (.error what) (.error what)

theorem AheadBy.refl (world : Live World) : AheadBy 0 world world := by
  cases world with
  | ok world => exact .running world world.scans rfl
  | error what => exact .stopped what

/-- An act that is not aware of how far a world is ahead. -/
def Steady (act : Act (Live World) α) : Prop :=
  ∀ ⦃n first second⦄, AheadBy n first second →
    (act first).1 = (act second).1 ∧ AheadBy n (act first).2 (act second).2

theorem Steady.pure (a : α) : Steady fun world => (a, world) := fun _ _ _ h => ⟨rfl, h⟩

/-- An attempt that goes along with every count leaves the count alone. -/
theorem Steady.live {attempt : Attempt World ε α}
    (h : ∀ scans, Commutes (World.withScans scans) attempt) (gone : ε) :
    Steady (attempt.live gone) := by
  rintro n _ _ (⟨world, scans, hscans⟩ | what)
  · have hfirst := h scans world
    have hkept : (attempt world).2.scans = world.scans :=
      congrArg (fun result => result.2.scans) (h world.scans world)
    dsimp only [Attempt.live]
    rw [hfirst]
    generalize attempt world = second at hkept
    obtain ⟨answer, after⟩ := second
    cases answer with
    | ok a => exact ⟨rfl, .running after scans (hkept ▸ hscans)⟩
    | error interruption =>
      cases interruption with
      | failed error => exact ⟨rfl, .running after scans (hkept ▸ hscans)⟩
      | overflow what => exact ⟨rfl, .stopped what⟩
  · exact ⟨rfl, .stopped what⟩

theorem World.pose_steady : Steady World.probe.pose :=
  .live (fun _ => .ofAct fun _ => rfl) World.gone

theorem World.findBlock_steady (query : Query) (origin : Position) (radius : UInt32) :
    Steady (World.probe.findBlock query origin radius) :=
  .live (fun _ => .find (fun _ _ => rfl) query origin radius) World.gone

theorem Check.evaluate_steady (check : Check) (args : Arguments) :
    Steady (check.handler.evaluate args) := by
  have hlooks : ∀ scans, Act.Commutes (World.withScans scans)
      fun world => (check.evaluate args world, world) := fun scans world =>
    congrArg (·, world.withScans scans) (check.evaluate_withScans scans args world)
  exact .live (fun scans => .ofAct (hlooks scans)) Simulation.gone

/-! ## Scans -/

theorem World.scan_of_fits {world : World} {scans : UInt32}
    (h : scans.toNat = world.scans.toNat + 1) :
    (World.scan : Attempt World ε Unit) world = (.ok (), world.withScans scans) := by
  simp only [World.scan, get_bind, fitCount_eq_some_iff.2 h, checked_some_bind]
  rfl

theorem World.scan_of_full {world : World} (h : UInt32.size ≤ world.scans.toNat + 1) :
    (World.scan : Attempt World ε Unit) world = (.error (.overflow .scanCount), world) := by
  simp only [World.scan, get_bind, fitCount_eq_none_iff.2 h]
  rfl

/-- A scan of the first world puts it ahead by one more, unless its count is full. -/
theorem AheadBy.scanned {n : Nat} {world : World} {second : Live World}
    (h : AheadBy n (.ok world) second) (radius : UInt32) :
    World.probe.scan radius (.ok world) = (.error World.gone, .error .scanCount) ∨
      ∃ after, World.probe.scan radius (.ok world) = (.ok (), .ok after) ∧
        AheadBy (n + 1) (.ok after) second := by
  cases h with
  | running world scans h =>
    dsimp only [World.probe, Attempt.live]
    cases hfits : fitCount ((world.withScans scans).scans.toNat + 1) with
    | none =>
      rw [World.scan_of_full (fitCount_eq_none_iff.1 hfits)]
      exact .inl rfl
    | some more =>
      have hmore : more.toNat = scans.toNat + 1 := fitCount_eq_some_iff.1 hfits
      rw [World.scan_of_fits hmore]
      exact .inr ⟨world.withScans more, rfl, .running world more (by omega)⟩

/-- An act that is not aware of how far a world is ahead, unless it stops at a full count. -/
def SteadyUnlessFull (act : Act (Live World) (Except Fault α)) : Prop :=
  ∀ ⦃n first second⦄, AheadBy n first second →
    act first = (.error gone, .error .scanCount) ∨
      ((act first).1 = (act second).1 ∧ AheadBy n (act first).2 (act second).2)

/-- Both worlds count a scan, unless the first is full. -/
theorem Op.executeScan_steady (args : Arguments) :
    SteadyUnlessFull (Attempt.live gone (executeScan args)) := by
  rintro n _ _ (⟨world, scans, hscans⟩ | what)
  · cases hradius : scanRadius args with
    | error fault =>
      have hrefused : ∀ world, executeScan args world = (.error (.failed fault), world) := by
        intro world
        unfold executeScan
        rw [hradius]
        rfl
      dsimp only [Attempt.live]
      rw [hrefused, hrefused]
      exact .inr ⟨rfl, .running world scans hscans⟩
    | ok radius =>
      have hscan : executeScan args =
          (World.scan >>= fun _ => pure ["scanned r=" ++ toString radius.toNat]) := by
        unfold executeScan
        rw [hradius]
        rfl
      dsimp only [Attempt.live]
      rw [hscan]
      cases hfits : fitCount ((world.withScans scans).scans.toNat + 1) with
      | none =>
        rw [bind_error (World.scan_of_full (fitCount_eq_none_iff.1 hfits))]
        exact .inl rfl
      | some more =>
        have hmore : more.toNat = scans.toNat + 1 := fitCount_eq_some_iff.1 hfits
        obtain ⟨less, hless⟩ : ∃ less : UInt32, less.toNat = world.scans.toNat + 1 :=
          ⟨_, UInt32.toNat_ofNat_of_lt' (Nat.lt_of_le_of_lt (by omega) more.toNat_lt)⟩
        rw [bind_ok (World.scan_of_fits hmore), bind_ok (World.scan_of_fits hless)]
        exact .inr ⟨rfl, .running (world.withScans less) more
          (by change more.toNat = less.toNat + n; omega)⟩
  · exact .inr ⟨rfl, .stopped what⟩

theorem Op.execute_steady (op : Op) (args : Arguments) :
    SteadyUnlessFull (op.handler.execute args) := by
  by_cases hop : op = .scan
  · subst hop
    exact executeScan_steady args
  · intro n first second h
    exact .inr (Steady.live (fun scans => commutes_execute scans args hop) gone h)

/-- The result of a command is the same in both worlds, unless the first is full. Then the command has
lost its connection. -/
theorem Op.settle_steady (op : Op) (call : CommandCall) (opIndex : Nat) (stamp : Timestamp)
    (prepared : Run.Prepared) {n : Nat} {first second : Live World} (h : AheadBy n first second) :
    (∃ step, Run.settle call op.handler opIndex stamp prepared first =
        (.failure step, .error .scanCount) ∧ step.kind = .connectionLost) ∨
      ((Run.settle call op.handler opIndex stamp prepared first).1 =
          (Run.settle call op.handler opIndex stamp prepared second).1 ∧
        AheadBy n (Run.settle call op.handler opIndex stamp prepared first).2
          (Run.settle call op.handler opIndex stamp prepared second).2) := by
  cases prepared with
  | lookupFailed message notes => exact .inr ⟨rfl, h⟩
  | ready args notes =>
    dsimp only [Run.settle]
    cases hchecked : op.validate args with
    | error fault =>
      have hrefused : ∀ world, Run.attempt op.handler args world = (.error fault, world) := by
        intro world
        dsimp only [Run.attempt, handler]
        rw [hchecked]
      rw [hrefused, hrefused]
      exact .inr ⟨rfl, h⟩
    | ok passed =>
      have hacts : ∀ world, Run.attempt op.handler args world = op.handler.execute args world := by
        intro world
        dsimp only [Run.attempt, handler]
        rw [hchecked]
      rw [hacts, hacts]
      rcases op.execute_steady args h with hfull | ⟨hsame, hkept⟩
      · rw [hfull]
        exact .inl ⟨_, rfl, rfl⟩
      · rw [hsame]
        exact .inr ⟨rfl, hkept⟩

end Simulation

end BlockScript
