import BlockScript.Proofs.Simulation.Commands
import BlockScript.Proofs.Space.Distance

/-!
# Reach

A dig or a place that succeeds has acted within reach, by a squared distance in 64-bit words. A target
so far away that the squared distance has no word is never reached, but it is not refused either: such
a command stops the program.
-/
namespace BlockScript.Simulation
set_option autoImplicit false

open Attempt

/-- Whatever is reached is as near as the exact squared distance says. -/
theorem World.Reaches.exactDistanceSq_le {world : World} {target : Position}
    (h : world.Reaches target) : world.pose.position.exactDistanceSq target ≤ 20 := by
  obtain ⟨d, hd, hreach⟩ := h
  rw [← Position.distanceSq?_eq_some_iff.1 hd]
  exact Int64.le_iff_toInt_le.1 hreach

namespace Op

/-- The position that a dig or a place acts on. -/
def target? (args : Arguments) : Op → Option Position
  | dig => args.position? 0 "target"
  | place => args.position? 1 "target"
  | _ => none

variable {args : Arguments} {world after : World} {notes : List String}

/-- Both commands that act at a distance look whether they reach. -/
theorem reaches_of_execute {op : Op} (hop : op = .dig ∨ op = .place)
    (h : op.execute args world = (.ok notes, after)) :
    ∃ target, op.target? args = some target ∧ world.Reaches target := by
  rcases hop with rfl | rfl
  · obtain ⟨target, -, htarget, hreach, -⟩ := executeDig_eq_ok h
    exact ⟨target, htarget, hreach⟩
  · obtain ⟨id, target, -, htarget, -, -, hreach, -⟩ := executePlace_eq_ok h
    exact ⟨target, htarget, hreach⟩

/-- A look whether the actor reaches a position stops where their squared distance has no word. -/
theorem requireReach_bind_eq_overflow {α : Type} {target : Position}
    {next : Unit → Attempt World Fault α} :
    (requireReach target >>= next) world = (.error (.overflow .distance), after) ↔
      (world.pose.position.distanceSq? target = none ∧ world = after) ∨
        (world.Reaches target ∧ next () world = (.error (.overflow .distance), after)) := by
  simp only [requireReach, bind_assoc, get_bind, checked_bind_eq_overflow, ensure_bind_eq_overflow,
    decide_eq_true_eq, World.Reaches, ← and_assoc, exists_and_right, true_and]

theorem executeDig_eq_overflow (h : executeDig args world = (.error (.overflow .distance), after)) :
    ∃ target, args.position? 0 "target" = some target ∧
      world.pose.position.distanceSq? target = none ∧ after = world := by
  simp only [executeDig, require_bind_eq_overflow, get_bind, ensure_bind_eq_overflow,
    requireReach_bind_eq_overflow, change_bind, World.giveItem, bind_assoc,
    checked_bind_eq_overflow] at h
  obtain ⟨target, htarget, -, -, ⟨hfar, rfl⟩ | ⟨-, ⟨-, hother, -⟩ | ⟨total, -, hdone⟩⟩⟩ := h
  · exact ⟨target, requirePosition_eq_ok htarget, hfar, rfl⟩
  · cases hother
  · cases hdone

theorem executePlace_eq_overflow
    (h : executePlace args world = (.error (.overflow .distance), after)) :
    ∃ target, args.position? 1 "target" = some target ∧
      world.pose.position.distanceSq? target = none ∧ after = world := by
  simp only [executePlace, require_bind_eq_overflow, requireItem, bind_assoc, pure_bind, get_bind,
    ensure_bind_eq_overflow, requireReach_bind_eq_overflow, change_bind] at h
  obtain ⟨id, -, target, htarget, -, -, ⟨hfar, rfl⟩ | ⟨-, hdone⟩⟩ := h
  · exact ⟨target, requirePosition_eq_ok htarget, hfar, rfl⟩
  · cases hdone

/-- A dig or a place that an overflow of the squared distance stops has changed nothing yet. -/
theorem far_of_execute {op : Op} (hop : op = .dig ∨ op = .place)
    (h : op.execute args world = (.error (.overflow .distance), after)) :
    ∃ target, op.target? args = some target ∧
      world.pose.position.distanceSq? target = none ∧ after = world := by
  rcases hop with rfl | rfl
  · exact executeDig_eq_overflow h
  · exact executePlace_eq_overflow h

end Op

/-- Between any two positions, every difference, product and sum of the squared distance stays in
range, and the word is exact, exactly when the squared distance is below `2^63`; otherwise there is no
word. So a dig or a place that succeeds has acted within reach, and one that stops at its squared
distance has a target at `2^63` or more and has done nothing. -/
theorem reach_sound_or_stopped {op : Op} (hop : op = .dig ∨ op = .place) (args : Arguments)
    (world after : World) :
    (∀ (a b : Position) (d : Int64), a.distanceSq? b = some d ↔ d.toInt = a.exactDistanceSq b) ∧
    (∀ a b : Position, a.distanceSq? b = none ↔ Int64.maxValue.toInt < a.exactDistanceSq b) ∧
    (∀ notes, op.execute args world = (.ok notes, after) →
      ∃ target, op.target? args = some target ∧
        world.pose.position.exactDistanceSq target ≤ 20) ∧
    (op.execute args world = (.error (.overflow .distance), after) →
      ∃ target, op.target? args = some target ∧
        Int64.maxValue.toInt < world.pose.position.exactDistanceSq target ∧ after = world) := by
  refine ⟨fun _ _ _ => Position.distanceSq?_eq_some_iff,
    fun _ _ => Position.distanceSq?_eq_none_iff, ?_, ?_⟩
  · intro notes h
    obtain ⟨target, htarget, hreach⟩ := Op.reaches_of_execute hop h
    exact ⟨target, htarget, hreach.exactDistanceSq_le⟩
  · intro h
    obtain ⟨target, htarget, hfar, rfl⟩ := Op.far_of_execute hop h
    exact ⟨target, htarget, Position.distanceSq?_eq_none_iff.1 hfar, rfl⟩

/-- The actor of a flat world digs at the edge of its reach. -/
def digAtEdge : Arguments := ⟨[.position ⟨-4, 63, 1⟩], Dict.empty⟩

theorem reach_sound_at_edge :
    (Op.dig.execute digAtEdge World.flat).1 = .ok ["dug minecraft:stone at (-4, 63, 1)"] ∧
      Position.exactDistanceSq ⟨0, 64, 0⟩ ⟨-4, 63, 1⟩ = 18 ∧
      ∃ target, Op.dig.target? digAtEdge = some target ∧
        World.flat.pose.position.exactDistanceSq target ≤ 20 := by
  have hdug : (Op.dig.execute digAtEdge World.flat).1 =
      .ok ["dug minecraft:stone at (-4, 63, 1)"] := by decide +kernel
  obtain ⟨-, -, hreach, -⟩ := reach_sound_or_stopped (.inl rfl) digAtEdge World.flat _
  exact ⟨hdug, by decide, hreach _ (Prod.ext hdug rfl)⟩

/-- The actor stands at one end of the coordinate range and digs at the other. The first product leaves
the range and stops the program: the target is not refused. -/
theorem far_dig_stops :
    (Op.dig.execute ⟨[.position ⟨2147483647, 63, 0⟩], Dict.empty⟩
        (World.ofPose ⟨0.0, ⟨-2147483648, 64, 0⟩⟩)).1 = .error (.overflow .distance) ∧
      Position.exactDistanceSq ⟨-2147483648, 64, 0⟩ ⟨2147483647, 63, 0⟩ =
        18446744065119617026 ∧
      ¬ ∀ a b : Position, ∃ d : Int64, a.distanceSq? b = some d ∧ d.toInt = a.exactDistanceSq b := by
  refine ⟨by decide +kernel, by decide, fun hexact => ?_⟩
  obtain ⟨d, hd, -⟩ := hexact ⟨-2147483648, 64, 0⟩ ⟨2147483647, 63, 0⟩
  have hnone : Position.distanceSq? ⟨-2147483648, 64, 0⟩ ⟨2147483647, 63, 0⟩ = none := by decide
  rw [hnone] at hd
  cases hd

end BlockScript.Simulation
