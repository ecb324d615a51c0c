import BlockScript.Proofs.Simulation.Checks
import BlockScript.Proofs.Simulation.Conservation

/-!
# The item in hand

An item comes into the hand only from the inventory, and leaves it with the last one that is placed.
So the actor owns what it holds, whatever is done to its world, as long as no dig finds the count of
its item full.
-/
namespace BlockScript.Simulation
set_option autoImplicit false

/-- What can be done to a world from outside, and the execution of a command. -/
inductive Deed where
  | setBlock (target : Position) (block : Block)
  | setPose (pose : Pose)
  | giveItem (item : String) (count : UInt32)
  | execute (execution : Execution)

namespace Deed

/-- The world afterwards, however the deed ends. -/
def run (world : World) : Deed → World
  | setBlock target block => world.setBlock target block
  | setPose pose => { world with pose }
  | giveItem item count => ((World.giveItem item count : Attempt World Fault Unit) world).2
  | execute e => e.run world

/-- No count of items is full when a command adds to it. -/
def HasRoom (world : World) : Deed → Prop
  | execute e => e.HasRoom world
  | _ => True

end Deed

/-- The worlds that deeds lead to from the one in which nothing has been done yet. -/
inductive Reachable : World → Prop where
  | new (pose : Pose) : Reachable (World.ofPose pose)
  | step {world : World} (before : Reachable world) (deed : Deed) (room : deed.HasRoom world) :
    Reachable (deed.run world)

namespace World

variable {world after : World} {item other : String}

/-- The actor owns what it holds. -/
def OwnsHeld (world : World) : Prop := ∀ item ∈ world.held, 1 ≤ world.stock item

/-- A stock is what the inventory counts. -/
theorem get?_of_one_le_stock (h : 1 ≤ world.stock item) :
    ∃ count, world.inventory.get? item = some count ∧ 1 ≤ count.toNat := by
  unfold stock count at h
  cases hfound : world.inventory.get? item with
  | none =>
    rw [hfound] at h
    cases h
  | some count =>
    rw [hfound] at h
    exact ⟨count, rfl, h⟩

theorem le_stock_setCount {total : UInt32} (h : world.stock item ≤ total.toNat) :
    world.stock other ≤ (world.setCount item total).stock other := by
  rw [stock_setCount]
  split
  · next hother => exact hother ▸ h
  · exact le_rfl

/-- What is given is added to the count of the item, or nothing changes. -/
theorem giveItem_cases {ε : Type} (item : String) (count : UInt32) (world : World) :
    ((giveItem item count : Attempt World ε Unit) world).2 = world ∨
      ∃ total : UInt32, world.stock (Block.bareName item) ≤ total.toNat ∧
        ((giveItem item count : Attempt World ε Unit) world).2 =
          world.setCount (Block.bareName item) total := by
  unfold giveItem
  rw [Attempt.get_bind]
  cases htotal : fitCount ((world.itemCount item).toNat + count.toNat) with
  | none => exact .inl rfl
  | some total =>
    refine .inr ⟨total, ?_, rfl⟩
    rw [fitCount_eq_some_iff.1 htotal]
    exact Nat.le_add_right ..

namespace OwnsHeld

theorem ofPose (pose : Pose) : (World.ofPose pose).OwnsHeld := nofun

/-- Counts that only grow leave what is held owned. -/
theorem of_le (h : world.OwnsHeld) (hheld : after.held = world.held)
    (hle : ∀ item, world.stock item ≤ after.stock item) : after.OwnsHeld := fun item hitem =>
  (h item (hheld ▸ hitem)).trans (hle item)

/-- The last of an item leaves the hand when it is used. -/
theorem takeItem (h : world.OwnsHeld) (howned : world.count item ≠ 0) :
    (Op.takeItem world item).OwnsHeld := by
  intro other hother
  have hcount := stock_takeItem howned other
  change (if world.count item = 1 ∧ world.held = some item then none else world.held) =
    some other at hother
  split at hother
  · cases hother
  · next hkept =>
    have hstock := h other hother
    by_cases hsame : item = other
    · subst hsame
      have hmore : world.stock item ≠ 1 := fun hone =>
        hkept ⟨UInt32.toNat_inj.1 hone, hother⟩
      rw [if_pos rfl] at hcount
      omega
    · rw [if_neg hsame] at hcount
      omega

/-- A command takes into the hand what is owned, and takes out of it what is used up. -/
theorem execute (h : world.OwnsHeld) (e : Execution) (hroom : e.HasRoom world) :
    (e.run world).OwnsHeld := by
  obtain ⟨op, args⟩ := e
  unfold Execution.HasRoom at hroom
  dsimp only at hroom
  cases hended : op.execute args world with
  | mk answer after =>
    have hrun : Execution.run ⟨op, args⟩ world = after := congrArg Prod.snd hended
    rw [hended] at hroom
    rw [hrun]
    cases answer with
    | error interruption =>
      have hkept : after = world :=
        Op.clean_execute args op world _ after hended fun hfull => hroom (congrArg Except.error hfull)
      rwa [hkept]
    | ok notes =>
      by_cases hdig : op = .dig
      · subst hdig
        obtain ⟨target, total, -, -, htotal, rfl⟩ := Op.executeDig_eq_ok hended
        have hmore : (world.setBlock target Block.air).stock
            (Block.bareName (world.block target).name) ≤ total.toNat := by
          rw [htotal]
          exact Nat.le_succ _
        exact h.of_le rfl fun item => le_stock_setCount hmore
      · by_cases hplace : op = .place
        · subst hplace
          obtain ⟨id, target, -, -, howned, -, -, rfl⟩ := Op.executePlace_eq_ok hended
          exact h.takeItem howned
        · obtain ⟨-, hinventory, hheld | ⟨item, howned, hheld⟩⟩ :=
            Op.execute_eq_ok_of_ne hdig hplace hended
          · exact h.of_le hheld fun item => (stock_congr hinventory).ge
          · intro other hother
            obtain rfl : item = other := Option.some.inj (hheld.symm.trans hother)
            exact (one_le_stock howned).trans (stock_congr hinventory).ge

theorem run (h : world.OwnsHeld) {deed : Deed} (hroom : deed.HasRoom world) :
    (deed.run world).OwnsHeld := by
  cases deed with
  | setBlock target block => exact h.of_le rfl fun _ => le_rfl
  | setPose pose => exact h.of_le rfl fun _ => le_rfl
  | giveItem item count =>
    change ((World.giveItem item count : Attempt World Fault Unit) world).2.OwnsHeld
    rcases giveItem_cases item count world with hgiven | ⟨total, htotal, hgiven⟩
    · rwa [hgiven]
    · rw [hgiven]
      exact h.of_le rfl fun _ => le_stock_setCount htotal
  | execute e => exact h.execute e hroom

theorem of_reachable (h : Reachable world) : world.OwnsHeld := by
  induction h with
  | new pose => exact ofPose pose
  | step before deed hroom ih => exact ih.run hroom

end OwnsHeld

end World

/-- In every world that is reached while counts have room, the actor owns what it holds. A place that
succeeds there lowers the count of its item by exactly one and no other, so that none goes below zero,
and one that ends early changes nothing. -/
theorem held_item_owned {world : World} (h : Reachable world) :
    (∀ item ∈ world.held, ∃ count, world.inventory.get? item = some count ∧ 1 ≤ count.toNat) ∧
    ∀ (args : Arguments) (after : World),
      (∀ notes, Op.place.execute args world = (.ok notes, after) →
        ∃ id, args.text? 0 "id" = some id ∧ ∀ item,
          after.stock item + (if Block.bareName id = item then 1 else 0) = world.stock item) ∧
      ∀ interruption, Op.place.execute args world = (.error interruption, after) →
        after = world := by
  refine ⟨fun item hitem => World.get?_of_one_le_stock (World.OwnsHeld.of_reachable h item hitem),
    fun args after => ⟨fun notes hplaced => ?_, fun interruption hended => ?_⟩⟩
  · obtain ⟨id, target, hid, -, howned, -, -, rfl⟩ := Op.executePlace_eq_ok hplaced
    exact ⟨id, hid, fun item => World.stock_takeItem howned item⟩
  · exact Op.clean_executePlace args (fun _ => True) world interruption after hended trivial

/-- The actor has been given two pieces of dirt and has equipped one by its full name. -/
def withDirt : World :=
  Deed.run (Deed.run World.flat (.giveItem "minecraft:dirt" 2))
    (.execute ⟨.equip, ⟨[.text "minecraft:dirt"], Dict.empty⟩⟩)

theorem reachable_withDirt : Reachable withDirt := by
  refine .step (.step (.new _) (.giveItem "minecraft:dirt" 2) trivial) (.execute _) ?_
  change Execution.HasRoom _ _
  decide +kernel

/-- One piece of the dirt is placed on the ground beside the actor. -/
theorem held_item_owned_dirt :
    let args : Arguments := ⟨[.text "dirt", .position ⟨1, 64, 0⟩], Dict.empty⟩
    let after := (Op.place.execute args withDirt).2
    withDirt.held = some "dirt" ∧
      (∃ count, withDirt.inventory.get? "dirt" = some count ∧ 1 ≤ count.toNat) ∧
      after.stock "dirt" + 1 = withDirt.stock "dirt" ∧ after.held = some "dirt" := by
  intro args after
  have hheld : withDirt.held = some "dirt" := by decide +kernel
  obtain ⟨howned, hplace⟩ := held_item_owned reachable_withDirt
  have hplaced : Op.place.execute args withDirt = (.ok ["placed dirt at (1, 64, 0)"], after) :=
    Prod.ext (by decide +kernel) rfl
  obtain ⟨id, hid, hcount⟩ := (hplace args after).1 _ hplaced
  obtain rfl : "dirt" = id := Option.some.inj hid
  exact ⟨hheld, howned _ hheld, hcount "dirt", by decide +kernel⟩

end BlockScript.Simulation
