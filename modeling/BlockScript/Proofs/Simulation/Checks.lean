import BlockScript.Proofs.Simulation.Commands

/-!
# Checks and actions

A command of the simulated world looks at its arguments twice, in its check and once more when it
acts. Both looks take the same arguments for the same faults, so that arguments which pass the check
never fail the action, and arguments which do not pass fail it in the same words. Only waiting acts
on any arguments. A command that fails leaves the world as it was.
-/
namespace BlockScript.Simulation
set_option autoImplicit false

open Attempt

variable {α : Type}

/-- A fault that is found with the arguments. -/
def OfArguments (interruption : Interruption Fault) : Prop :=
  ∃ reason, interruption = .failed (.invalidArgs reason)

/-- An action that fails where its check does, with the same fault and before it has done anything, and
that finds no fault with arguments once they have passed. -/
structure Guards (check : Except Fault Unit) (action : Attempt World Fault (List String)) :
    Prop where
  refuses : ∀ fault, check = .error fault → ∀ world, action world = (.error (.failed fault), world)
  passes : check = .ok () → Withstands OfArguments action

namespace Guards

/-- What the check asks for first, the action asks for first. -/
theorem bind {question : Except Fault α} {check : α → Except Fault Unit}
    {action : α → Attempt World Fault (List String)} (h : ∀ a, Guards (check a) (action a)) :
    Guards (question >>= check) (.require question >>= action) := by
  cases question with
  | error fault =>
    refine ⟨fun other hother world => ?_, fun hpassed => ?_⟩
    · obtain rfl : fault = other := Except.error.inj hother
      rfl
    · cases hpassed
  | ok a => exact h a

/-- Nothing is left to check, and what is left to do has other faults. -/
theorem passed {action : Attempt World Fault (List String)} (h : Withstands OfArguments action) :
    Guards (pure ()) action :=
  ⟨nofun, fun _ => h⟩

end Guards

theorem not_ofArguments_failed {code message : String} {notes : List String} :
    ¬ OfArguments (.failed (.failed code message notes)) := nofun

theorem not_ofArguments_overflow {what : Overflow} : ¬ OfArguments (.overflow what) := nofun

theorem withstands_requireReach (target : Position) : Withstands OfArguments (requireReach target) :=
  .bind .get fun _ => .bind (.checked _ not_ofArguments_overflow) fun _ =>
    .ensure _ not_ofArguments_failed

theorem withstands_requireItem (item : String) : Withstands OfArguments (requireItem item) :=
  .bind .get fun _ => .bind (.ensure _ not_ofArguments_failed) fun _ => .pure _

theorem withstands_scan : Withstands OfArguments World.scan :=
  .bind .get fun _ => .bind (.checked _ not_ofArguments_overflow) fun _ => .change _

namespace Op

variable (args : Arguments)

theorem guards_move : Guards (move.validate args) (executeMove args) :=
  .bind fun _ => .passed <| .bind .get fun _ => .bind (.ensure _ not_ofArguments_failed) fun _ =>
    .bind (.change _) fun _ => .pure _

theorem guards_turn : Guards (turn.validate args) (executeTurn args) :=
  .bind fun _ => .passed <| .bind (.change _) fun _ => .bind .get fun _ => .pure _

theorem guards_turnFace : Guards (turnFace.validate args) (executeTurnFace args) :=
  .bind fun _ => .passed <| .bind (.change _) fun _ => .pure _

theorem guards_dig : Guards (dig.validate args) (executeDig args) :=
  .bind fun target => .passed <| .bind .get fun _ => .bind (.ensure _ not_ofArguments_failed) fun _ =>
    .bind (.ensure _ not_ofArguments_failed) fun _ => .bind (withstands_requireReach target) fun _ =>
      .bind (.change _) fun _ => .bind (withstands_giveItem not_ofArguments_overflow _ _) fun _ => .pure _

theorem guards_place : Guards (place.validate args) (executePlace args) :=
  .bind fun _ => .bind fun target => .passed <| .bind (withstands_requireItem _) fun _ =>
    .bind .get fun _ => .bind (.ensure _ not_ofArguments_failed) fun _ =>
      .bind (withstands_requireReach target) fun _ => .bind (.change _) fun _ =>
        .bind (.change _) fun _ => .bind (.change _) fun _ => .pure _

theorem guards_equip : Guards (equip.validate args) (executeEquip args) :=
  .bind fun _ => .passed <| .bind (withstands_requireItem _) fun _ =>
    .bind (.change _) fun _ => .pure _

theorem guards_scan : Guards (scan.validate args) (executeScan args) :=
  .bind fun _ => .passed <| .bind withstands_scan fun _ => .pure _

theorem guards_log : Guards (log.validate args) (executeLog args) :=
  .passed <| .bind (.change _) fun _ => .pure _

/-- Every command but waiting is guarded by its check. -/
theorem guards {op : Op} (hop : op ≠ .wait) : Guards (op.validate args) (op.execute args) := by
  cases op with
  | move => exact guards_move args
  | goto => exact guards_move args
  | turn => exact guards_turn args
  | turnFace => exact guards_turnFace args
  | dig => exact guards_dig args
  | place => exact guards_place args
  | equip => exact guards_equip args
  | scan => exact guards_scan args
  | log => exact guards_log args
  | wait => exact absurd rfl hop

/-- A command that fails leaves the world as it was. -/
theorem eq_of_execute_failed {op : Op} {args : Arguments} {world after : World} {fault : Fault}
    (h : op.execute args world = (.error (.failed fault), after)) : after = world :=
  clean_execute args op world _ after h nofun

end Op

/-- Commands fail cleanly. One that fails leaves the world as it was, with its pose, blocks,
inventory, item in hand, scans and messages; one whose arguments have passed the check does not fail
for its arguments; and, waiting apart, one whose arguments do not pass fails with the fault of the
check. -/
theorem commands_fail_cleanly (op : Op) (args : Arguments) (world : World) :
    (∀ fault after, op.execute args world = (.error (.failed fault), after) → after = world) ∧
    (op.validate args = .ok () →
      ∀ reason, (op.execute args world).1 ≠ .error (.failed (.invalidArgs reason))) ∧
    (op ≠ .wait → ∀ fault, op.validate args = .error fault →
      (op.execute args world).1 = .error (.failed fault)) := by
  refine ⟨fun fault after h => Op.eq_of_execute_failed h, fun hpassed reason h => ?_,
    fun hop fault hrefused => ?_⟩
  · by_cases hop : op = .wait
    · subst hop
      cases h
    · exact (Op.guards args hop).passes hpassed world _ h ⟨reason, rfl⟩
  · exact congrArg Prod.fst ((Op.guards args hop).refuses fault hrefused world)

/-- A radius below zero is refused by the check of a scan and by the scan, which is not counted. -/
theorem commands_fail_cleanly_scan :
    let args : Arguments := ⟨[.int (-1)], Dict.empty⟩
    let fault : Fault := .invalidArgs "scan radius out of range: -1"
    Op.scan.validate args = .error fault ∧
      (Op.scan.execute args World.flat).1 = .error (.failed fault) ∧
      (Op.scan.execute args World.flat).2.scans = 0 := by
  intro args fault
  obtain ⟨hclean, -, hrefuses⟩ := commands_fail_cleanly .scan args World.flat
  have hchecked : Op.scan.validate args = .error fault := rfl
  have hfailed := hrefuses (by decide) fault hchecked
  exact ⟨hchecked, hfailed, congrArg World.scans (hclean fault _ (Prod.ext hfailed rfl))⟩

example : Op.wait.validate ⟨[.int (-1)], Dict.empty⟩ =
      .error (.invalidArgs "wait time must be between 0 and 300000ms") ∧
    (Op.wait.execute ⟨[.int (-1)], Dict.empty⟩ World.flat).1 = .ok [] :=
  ⟨rfl, rfl⟩

end BlockScript.Simulation
