import Mathlib.Algebra.BigOperators.Group.Finset.Piecewise
import BlockScript.Proofs.Simulation.Commands

/-!
# Conservation of blocks and items

A dig turns a block into an item and a place turns an item into a block; no other command touches
either. So what the actor carries of an item, with the blocks of that name in any area that holds the
targets, stays the same however many commands are executed, as long as no dig finds the count of its
item full. Air is no item in this sense: it fills the places that are dug and gives way where something
is placed.
-/
namespace BlockScript
set_option autoImplicit false

namespace Block

theorem isPrefixOf?_append (front rest : List Char) :
    front.isPrefixOf? (front ++ rest) = some rest := by
  induction front with
  | nil => rfl
  | cons c front ih =>
    rw [List.cons_append, List.isPrefixOf?, if_pos (beq_self_eq_true c), ih]

/-- The namespace that is put in front of a name is the one that is taken off. -/
@[simp]
theorem bareName_namespaced (name : String) : bareName (namespaced name) = name := by
  unfold bareName namespaced
  rw [String.toList_append, isPrefixOf?_append]
  exact String.ofList_toList

/-- No item but air has the name of the block that is left where one is dug. -/
theorem bareName_air_ne {item : String} (h : item ∉ airNames) : bareName air.name ≠ item := by
  rintro rfl
  refine h ?_
  rw [air, plain, bareName_namespaced]
  exact List.mem_cons_self

theorem bareName_ne_of_isAir {block : Block} {item : String} (hair : block.isAir = true)
    (h : item ∉ airNames) : bareName block.name ≠ item := by
  rintro rfl
  exact h (List.contains_iff_mem.1 hair)

end Block

namespace Simulation

/-! ## What an execution changes -/

/-- What an execution does to blocks and items. -/
inductive Change where
  | nothing
  | dug (target : Position)
  | placed (item : String) (target : Position)

/-- The position whose block is another one afterwards. -/
def Change.target? : Change → Option Position
  | nothing => none
  | dug target => some target
  | placed _ target => some target

/-- A command with its arguments, handed to its handler. -/
structure Execution where
  op : Op
  args : Arguments

namespace Execution

/-- The world afterwards, however the command ends. -/
def run (e : Execution) (world : World) : World := (e.op.execute e.args world).2

/-- Only a dig or a place that succeeds changes blocks and items. -/
def change (e : Execution) (world : World) : Change :=
  match e.op, (e.op.execute e.args world).1 with
  | .dig, .ok _ => (e.args.position? 0 "target").elim .nothing .dug
  | .place, .ok _ =>
    match e.args.text? 0 "id", e.args.position? 1 "target" with
    | some id, some target => .placed (Block.bareName id) target
    | _, _ => .nothing
  | _, _ => .nothing

/-- The execution does not find a count of items full. -/
def HasRoom (e : Execution) (world : World) : Prop :=
  (e.op.execute e.args world).1 ≠ .error (.overflow .itemCount)

instance (e : Execution) (world : World) : Decidable (e.HasRoom world) :=
  inferInstanceAs (Decidable (_ ≠ _))

end Execution

/-- How the blocks and the items of a world are related to those after a change. -/
inductive Changes (world : World) : Change → World → Prop where
  | nothing {after : World} (overrides : after.overrides = world.overrides)
    (inventory : after.inventory = world.inventory) : Changes world .nothing after
  | dug {target : Position} {total : UInt32}
    (counted : total.toNat = (world.itemCount (world.block target).name).toNat + 1) :
    Changes world (.dug target)
      ((world.setBlock target Block.air).setCount (Block.bareName (world.block target).name) total)
  | placed {item : String} {target : Position} (owned : world.count item ≠ 0)
    (free : (world.block target).isAir = true) :
    Changes world (.placed item target)
      ((Op.takeItem world item).setBlock target (Block.plain (Block.namespaced item)))

/-- Every execution makes its change, and one that ends early makes none, unless it finds a count
full. -/
theorem Execution.changes (e : Execution) {world : World} (hroom : e.HasRoom world) :
    Changes world (e.change world) (e.run world) := by
  obtain ⟨op, args⟩ := e
  unfold HasRoom at hroom
  dsimp only at hroom
  cases hended : op.execute args world with
  | mk answer after =>
    have hrun : run ⟨op, args⟩ world = after := congrArg Prod.snd hended
    rw [hended] at hroom
    rw [hrun]
    cases answer with
    | error interruption =>
      have hchange : change ⟨op, args⟩ world = .nothing := by
        unfold change
        dsimp only
        rw [hended]
        cases op <;> rfl
      have hkept : after = world :=
        Op.clean_execute args op world _ after hended fun hfull => hroom (congrArg Except.error hfull)
      rw [hchange, hkept]
      exact .nothing rfl rfl
    | ok notes =>
      by_cases hdig : op = .dig
      · subst hdig
        obtain ⟨target, total, htarget, -, htotal, rfl⟩ := Op.executeDig_eq_ok hended
        simp only [change, hended, htarget, Option.elim]
        exact .dug htotal
      · by_cases hplace : op = .place
        · subst hplace
          obtain ⟨id, target, hid, htarget, howned, hfree, -, rfl⟩ := Op.executePlace_eq_ok hended
          simp only [change, hended, hid, htarget]
          exact .placed howned hfree
        · have hchange : change ⟨op, args⟩ world = .nothing := by
            unfold change
            cases op <;> first | rfl | contradiction
          obtain ⟨hoverrides, hinventory, -⟩ := Op.execute_eq_ok_of_ne hdig hplace hended
          rw [hchange]
          exact .nothing hoverrides hinventory

/-! ## What there is of an item -/

namespace World

/-- How many of an item the actor carries. -/
def stock (world : World) (item : String) : Nat := (world.count item).toNat

/-- How many blocks in an area have the name of an item. -/
def blockCount (world : World) (area : Finset Position) (item : String) : Nat :=
  (area.filter fun p => Block.bareName (world.block p).name = item).card

/-- All there is of an item, carried or standing in an area. -/
def holdings (world : World) (area : Finset Position) (item : String) : Nat :=
  world.stock item + world.blockCount area item

/-- One for a block of the item's name. -/
def worth (block : Block) (item : String) : Nat := if Block.bareName block.name = item then 1 else 0

theorem stock_congr {world after : World} {item : String} (h : after.inventory = world.inventory) :
    after.stock item = world.stock item := by
  unfold stock count
  rw [h]

theorem blockCount_congr {world after : World} {area : Finset Position} {item : String}
    (h : after.overrides = world.overrides) :
    after.blockCount area item = world.blockCount area item := by
  have hblock : after.block = world.block := by
    funext p
    rw [block, h, block]
  rw [blockCount, hblock, blockCount]

/-- Setting a block trades the old one for the new one. -/
theorem blockCount_setBlock (world : World) {area : Finset Position} {target : Position}
    (h : target ∈ area) (block : Block) (item : String) :
    (world.setBlock target block).blockCount area item + worth (world.block target) item =
      world.blockCount area item + worth block item := by
  have hsum : ∀ w : World, w.blockCount area item =
      worth (w.block target) item + ∑ p ∈ area.erase target, worth (w.block p) item := by
    intro w
    rw [blockCount, Finset.card_filter]
    exact (Finset.add_sum_erase area (fun p => worth (w.block p) item) h).symm
  have hrest : ∑ p ∈ area.erase target, worth ((world.setBlock target block).block p) item =
      ∑ p ∈ area.erase target, worth (world.block p) item := by
    refine Finset.sum_congr rfl fun p hp => ?_
    rw [block_setBlock, if_neg (Finset.ne_of_mem_erase hp)]
  rw [hsum, hsum world, hrest, block_setBlock, if_pos rfl]
  omega

theorem stock_setCount (world : World) (name : String) (count : UInt32) (item : String) :
    (world.setCount name count).stock item = if item = name then count.toNat else world.stock item := by
  rw [stock, count_setCount, apply_ite UInt32.toNat]
  rfl

theorem one_le_stock {world : World} {item : String} (h : world.count item ≠ 0) :
    1 ≤ world.stock item :=
  Nat.one_le_iff_ne_zero.2 fun hzero => h (UInt32.toNat_inj.1 hzero)

theorem stock_takeItem {world : World} {taken : String} (h : world.count taken ≠ 0) (item : String) :
    (Op.takeItem world taken).stock item + (if taken = item then 1 else 0) =
      world.stock item := by
  have hone := one_le_stock h
  have hless : (world.count taken - 1).toNat = world.stock taken - 1 :=
    UInt32.toNat_sub_of_le _ _ (UInt32.le_iff_toNat_le.2 hone)
  change (world.setCount taken (world.count taken - 1)).stock item + _ = _
  rw [stock_setCount, hless]
  by_cases hitem : item = taken
  · subst hitem
    rw [if_pos rfl, if_pos rfl]
    omega
  · rw [if_neg hitem, if_neg (Ne.symm hitem), Nat.add_zero]

/-- The step of the conservation: a dig trades a block for an item, a place an item for a block. -/
theorem holdings_changes {world after : World} {change : Change} (h : Changes world change after)
    {area : Finset Position} (harea : ∀ target ∈ change.target?, target ∈ area) {item : String}
    (hitem : item ∉ Block.airNames) : after.holdings area item = world.holdings area item := by
  cases h with
  | nothing overrides inventory =>
    rw [holdings, holdings, stock_congr inventory, blockCount_congr overrides]
  | @dug target total counted =>
    have htrade := world.blockCount_setBlock (harea _ rfl) Block.air item
    have hair : worth Block.air item = 0 := if_neg (Block.bareName_air_ne hitem)
    have hstock := (world.setBlock target Block.air).stock_setCount
      (Block.bareName (world.block target).name) total item
    have hsame : (world.setBlock target Block.air).stock item = world.stock item := stock_congr rfl
    have hcount : ((world.setBlock target Block.air).setCount
        (Block.bareName (world.block target).name) total).blockCount area item =
        (world.setBlock target Block.air).blockCount area item := blockCount_congr rfl
    rw [holdings, holdings, hcount, hstock, hsame]
    unfold worth at *
    by_cases hname : Block.bareName (world.block target).name = item
    · have hcounted : total.toNat = world.stock item + 1 := by
        rw [counted, ← hname]
        rfl
      rw [if_pos hname] at htrade
      rw [if_pos hname.symm]
      omega
    · rw [if_neg hname] at htrade
      rw [if_neg (Ne.symm hname)]
      omega
  | @placed id target owned free =>
    have htaken := stock_takeItem owned item
    have htrade := (Op.takeItem world id).blockCount_setBlock (harea _ rfl)
      (Block.plain (Block.namespaced id)) item
    have hair : worth ((Op.takeItem world id).block target) item = 0 :=
      if_neg (Block.bareName_ne_of_isAir free hitem)
    have hname : worth (Block.plain (Block.namespaced id)) item = if id = item then 1 else 0 := by
      rw [worth, Block.plain, Block.bareName_namespaced]
    have hstock : ((Op.takeItem world id).setBlock target
        (Block.plain (Block.namespaced id))).stock item = (Op.takeItem world id).stock item :=
      stock_congr rfl
    have hcount : (Op.takeItem world id).blockCount area item = world.blockCount area item :=
      blockCount_congr rfl
    rw [holdings, holdings, hstock]
    omega

end World

/-! ## Sequences of executions -/

/-- The world after all of a sequence, in order. -/
def runAll (executions : List Execution) (world : World) : World :=
  executions.foldl (fun w e => e.run w) world

/-- The positions that a sequence digs out or builds on. -/
def targets : List Execution → World → List Position
  | [], _ => []
  | e :: rest, world => (e.change world).target?.toList ++ targets rest (e.run world)

/-- No count of items is full when a sequence adds to it. -/
def RoomForAll : List Execution → World → Prop
  | [], _ => True
  | e :: rest, world => e.HasRoom world ∧ RoomForAll rest (e.run world)

instance decidableRoomForAll (executions : List Execution) (world : World) :
    Decidable (RoomForAll executions world) :=
  match executions with
  | [] => .isTrue trivial
  | e :: rest => @instDecidableAnd _ _ _ (decidableRoomForAll rest (e.run world))

/-- Whatever is executed, however it ends, what there is of an item stays the same in every area that
holds the targets. -/
theorem blocks_and_items_conserved (executions : List Execution) (world : World)
    (hroom : RoomForAll executions world) (area : Finset Position)
    (harea : ∀ target ∈ targets executions world, target ∈ area) (item : String)
    (hitem : item ∉ Block.airNames) :
    (runAll executions world).holdings area item = world.holdings area item := by
  induction executions generalizing world with
  | nil => rfl
  | cons e rest ih =>
    obtain ⟨hfirst, hrest⟩ := hroom
    have hstep : (e.run world).holdings area item = world.holdings area item :=
      World.holdings_changes (e.changes hfirst)
        (fun target h => harea target (List.mem_append_left _ (Option.mem_toList.2 h))) hitem
    have hlater := ih (e.run world) hrest
      (fun target h => harea target (List.mem_append_right _ h))
    exact hlater.trans hstep

/-- A stone is dug and put down elsewhere, and another is out of reach. -/
def moveStone : List Execution :=
  [⟨.dig, ⟨[.position ⟨0, 63, -1⟩], Dict.empty⟩⟩,
    ⟨.place, ⟨[.text "minecraft:stone", .position ⟨1, 64, 0⟩], Dict.empty⟩⟩,
    ⟨.dig, ⟨[.position ⟨0, 63, 100⟩], Dict.empty⟩⟩]

theorem moved_stone_conserved :
    targets moveStone World.flat = [⟨0, 63, -1⟩, ⟨1, 64, 0⟩] ∧
      World.flat.holdings {⟨0, 63, -1⟩, ⟨1, 64, 0⟩} "stone" = 1 ∧
      (runAll moveStone World.flat).holdings {⟨0, 63, -1⟩, ⟨1, 64, 0⟩} "stone" =
        World.flat.holdings {⟨0, 63, -1⟩, ⟨1, 64, 0⟩} "stone" :=
  ⟨by decide +kernel, by decide +kernel,
    blocks_and_items_conserved moveStone World.flat (by decide +kernel) _ (by decide +kernel)
      "stone" (by decide)⟩

end Simulation

end BlockScript
