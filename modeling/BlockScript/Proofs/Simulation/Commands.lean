import BlockScript.Proofs.World.Attempt
import BlockScript.Simulation.Handlers

/-!
# What the commands do

Every command asks for all that it needs before it changes anything. So one that fails leaves the world
as it was, and so does one that an overflow stops, unless it stops at a count of items that is full.
Those that succeed are told by what they have found and what they have changed.
-/
namespace BlockScript.Simulation
set_option autoImplicit false

open Attempt

namespace World

/-- The actor is near enough to a position, by a squared distance that is in range. -/
def Reaches (world : World) (target : Position) : Prop :=
  ∃ d, world.pose.position.distanceSq? target = some d ∧ d ≤ reachSq

@[simp]
theorem block_setBlock (world : World) (target : Position) (block : Block) (p : Position) :
    (world.setBlock target block).block p = if p = target then block else world.block p := by
  unfold World.block setBlock
  rw [Std.ExtTreeMap.getElem?_insert]
  by_cases h : p = target
  · subst h
    rw [if_pos (Std.ReflCmp.compare_self), if_pos rfl, Option.getD_some]
  · have hne : Position.order target p ≠ .eq := fun heq =>
      h (Std.LawfulEqCmp.eq_of_compare heq).symm
    rw [if_neg hne, if_neg h]

@[simp]
theorem count_setCount (world : World) (item : String) (count : UInt32) (other : String) :
    (world.setCount item count).count other = if other = item then count else world.count other := by
  unfold World.count setCount
  rw [Dict.get?_insert]
  split <;> rfl

end World

/-! ## Early ends -/

/-- Every early end but the one at a full count of items. -/
def NotFull (interruption : Interruption Fault) : Prop := interruption ≠ .overflow .itemCount

theorem looks_requireReach (target : Position) : Looks (requireReach target) :=
  .bind .get fun _ => .bind (.checked _ _) fun _ => .ensure _ _

theorem looks_requireItem (item : String) : Looks (requireItem item) :=
  .bind .get fun _ => .bind (.ensure _ _) fun _ => .pure _

theorem withstands_giveItem {Reason : Interruption Fault → Prop}
    (h : ¬ Reason (.overflow .itemCount)) (item : String) (count : UInt32) :
    Withstands Reason (World.giveItem item count) :=
  .bind .get fun _ => .bind (.checked _ h) fun _ => .change _

namespace Op

variable (args : Arguments)

theorem clean_executeMove : Clean NotFull (executeMove args) :=
  .look (.require _) fun _ => .look .get fun _ => .look (.ensure _ _) fun _ =>
    .of_withstands <| .bind (.change _) fun _ => .pure _

theorem clean_executeTurn : Clean NotFull (executeTurn args) :=
  .look (.require _) fun _ =>
    .of_withstands <| .bind (.change _) fun _ => .bind .get fun _ => .pure _

theorem clean_executeTurnFace : Clean NotFull (executeTurnFace args) :=
  .look (.require _) fun _ => .of_withstands <| .bind (.change _) fun _ => .pure _

/-- Past the first change only the count of the item can be full. -/
theorem clean_executeDig : Clean NotFull (executeDig args) :=
  .look (.require _) fun target => .look .get fun _ => .look (.ensure _ _) fun _ =>
    .look (.ensure _ _) fun _ => .look (looks_requireReach target) fun _ =>
      .of_withstands <| .bind (.change _) fun _ =>
        .bind (withstands_giveItem (fun h => h rfl) _ _) fun _ => .pure _

/-- Nothing at all can end a place past its first change. -/
theorem clean_executePlace (Reason : Interruption Fault → Prop) :
    Clean Reason (executePlace args) :=
  .look (.require _) fun _ => .look (.require _) fun target =>
    .look (looks_requireItem _) fun _ => .look .get fun _ => .look (.ensure _ _) fun _ =>
      .look (looks_requireReach target) fun _ =>
        .of_withstands <| .bind (.change _) fun _ => .bind (.change _) fun _ =>
          .bind (.change _) fun _ => .pure _

theorem clean_executeEquip : Clean NotFull (executeEquip args) :=
  .look (.require _) fun _ => .look (looks_requireItem _) fun _ =>
    .of_withstands <| .bind (.change _) fun _ => .pure _

/-- A scan that cannot be counted is not made. -/
theorem clean_executeScan : Clean NotFull (executeScan args) := by
  refine .look (.require _) fun radius => ?_
  unfold World.scan
  simp only [bind_assoc]
  exact .look .get fun _ => .look (.checked _ _) fun _ =>
    .of_withstands <| .bind (.change _) fun _ => .pure _

theorem clean_executeLog : Clean NotFull (executeLog args) :=
  .of_withstands <| .bind (.change _) fun _ => .pure _

/-- No command leaves a change behind where it ends early, unless it stops at a full count. -/
theorem clean_execute (op : Op) : Clean NotFull (op.execute args) := by
  cases op with
  | move => exact clean_executeMove args
  | goto => exact clean_executeMove args
  | turn => exact clean_executeTurn args
  | turnFace => exact clean_executeTurnFace args
  | dig => exact clean_executeDig args
  | place => exact clean_executePlace args NotFull
  | equip => exact clean_executeEquip args
  | scan => exact clean_executeScan args
  | wait => exact .of_withstands (.pure _)
  | log => exact clean_executeLog args

-- A dig that finds the count of stone full has already taken the block out of the ground.
example :
    let full := World.flat.setCount "stone" 4294967295
    let dug := Op.dig.execute ⟨[.position ⟨0, 63, 1⟩], Dict.empty⟩ full
    dug.1 = .error (.overflow .itemCount) ∧ full.block ⟨0, 63, 1⟩ ≠ Block.air ∧
      dug.2.block ⟨0, 63, 1⟩ = Block.air :=
  ⟨rfl, by decide +kernel, by decide +kernel⟩

end Op

/-! ## Successes -/

theorem requirePosition_eq_ok {args : Arguments} {index : Nat} {key : String} {p : Position}
    (h : requirePosition args index key = .ok p) : args.position? index key = some p := by
  unfold requirePosition at h
  split at h
  · next hfound => rw [hfound, Except.ok.inj h]
  · cases h

theorem requireText_eq_ok {args : Arguments} {index : Nat} {key text : String}
    (h : requireText args index key = .ok text) : args.text? index key = some text := by
  unfold requireText at h
  split at h
  · next hfound => rw [hfound, Except.ok.inj h]
  · cases h

section

variable {α : Type} {args : Arguments} {world after : World} {notes : List String}

theorem requireReach_bind_eq_ok {target : Position} {next : Unit → Attempt World Fault α} {a : α} :
    (requireReach target >>= next) world = (.ok a, after) ↔
      world.Reaches target ∧ next () world = (.ok a, after) := by
  simp only [requireReach, bind_assoc, get_bind, checked_bind_eq_ok, ensure_bind_eq_ok,
    decide_eq_true_eq, World.Reaches, ← and_assoc, exists_and_right]

theorem requireItem_bind_eq_ok {item : String} {next : UInt32 → Attempt World Fault α} {a : α} :
    (requireItem item >>= next) world = (.ok a, after) ↔
      world.count item ≠ 0 ∧ next (world.count item) world = (.ok a, after) := by
  simp only [requireItem, bind_assoc, get_bind, ensure_bind_eq_ok, pure_bind, bne_iff_ne]

theorem giveItem_bind_eq_ok {item : String} {count : UInt32}
    {next : Unit → Attempt World Fault α} {a : α} :
    (World.giveItem item count >>= next) world = (.ok a, after) ↔
      ∃ total : UInt32, total.toNat = (world.itemCount item).toNat + count.toNat ∧
        next () (world.setCount (Block.bareName item) total) = (.ok a, after) := by
  simp only [World.giveItem, bind_assoc, get_bind, checked_bind_eq_ok, change_bind,
    fitCount_eq_some_iff]

namespace Op

/-- A dig that succeeds has found no air and its target within reach; there is room for one more in
the count of the item. -/
theorem executeDig_eq_ok (h : executeDig args world = (.ok notes, after)) :
    ∃ target total, args.position? 0 "target" = some target ∧ world.Reaches target ∧
      UInt32.toNat total = (world.itemCount (world.block target).name).toNat + 1 ∧
      after = (world.setBlock target Block.air).setCount
        (Block.bareName (world.block target).name) total := by
  simp only [executeDig, require_bind_eq_ok, get_bind, ensure_bind_eq_ok, requireReach_bind_eq_ok,
    change_bind, giveItem_bind_eq_ok, pure_eq_ok] at h
  obtain ⟨target, htarget, -, -, hreach, total, htotal, -, rfl⟩ := h
  exact ⟨target, total, requirePosition_eq_ok htarget, hreach, htotal, rfl⟩

/-- One item less, and out of the hand with the last. -/
def takeItem (world : World) (item : String) : World :=
  { world.setCount item (world.count item - 1) with
    held := if world.count item = 1 ∧ world.held = some item then none else world.held }

/-- A place that succeeds has found the item owned and the target free and within reach. -/
theorem executePlace_eq_ok (h : executePlace args world = (.ok notes, after)) :
    ∃ id target, args.text? 0 "id" = some id ∧ args.position? 1 "target" = some target ∧
      world.count (Block.bareName id) ≠ 0 ∧ (world.block target).isAir = true ∧
      world.Reaches target ∧
      after = (takeItem world (Block.bareName id)).setBlock target
        (Block.plain (Block.namespaced (Block.bareName id))) := by
  simp only [executePlace, require_bind_eq_ok, requireItem_bind_eq_ok, get_bind, ensure_bind_eq_ok,
    requireReach_bind_eq_ok, change_bind, pure_eq_ok] at h
  obtain ⟨id, hid, target, htarget, howned, hfree, hreach, -, rfl⟩ := h
  exact ⟨id, target, requireText_eq_ok hid, requirePosition_eq_ok htarget, howned, hfree, hreach, rfl⟩

theorem executeEquip_eq_ok (h : executeEquip args world = (.ok notes, after)) :
    ∃ item, world.count item ≠ 0 ∧ after = { world with held := some item } := by
  simp only [executeEquip, require_bind_eq_ok, requireItem_bind_eq_ok, change_bind, pure_eq_ok] at h
  obtain ⟨id, -, howned, -, rfl⟩ := h
  exact ⟨Block.bareName id, howned, rfl⟩

theorem executeMove_eq_ok (h : executeMove args world = (.ok notes, after)) :
    ∃ pose, after = { world with pose } := by
  simp only [executeMove, require_bind_eq_ok, get_bind, ensure_bind_eq_ok, change_bind,
    pure_eq_ok] at h
  obtain ⟨target, -, -, -, rfl⟩ := h
  exact ⟨_, rfl⟩

theorem executeTurn_eq_ok (h : executeTurn args world = (.ok notes, after)) :
    ∃ pose, after = { world with pose } := by
  simp only [executeTurn, require_bind_eq_ok, get_bind, change_bind, pure_eq_ok] at h
  obtain ⟨angle, -, -, rfl⟩ := h
  exact ⟨_, rfl⟩

theorem executeTurnFace_eq_ok (h : executeTurnFace args world = (.ok notes, after)) :
    ∃ pose, after = { world with pose } := by
  simp only [executeTurnFace, require_bind_eq_ok, change_bind, pure_eq_ok] at h
  obtain ⟨heading, -, -, rfl⟩ := h
  exact ⟨_, rfl⟩

theorem executeScan_eq_ok (h : executeScan args world = (.ok notes, after)) :
    ∃ scans, UInt32.toNat scans = world.scans.toNat + 1 ∧ after = { world with scans } := by
  simp only [executeScan, require_bind_eq_ok, World.scan, bind_assoc, get_bind, checked_bind_eq_ok,
    fitCount_eq_some_iff, change_bind, pure_eq_ok] at h
  obtain ⟨radius, -, scans, hscans, -, rfl⟩ := h
  exact ⟨scans, hscans, rfl⟩

theorem executeLog_eq_ok (h : executeLog args world = (.ok notes, after)) :
    ∃ logged, after = { world with logged } := by
  simp only [executeLog, change_bind, pure_eq_ok] at h
  obtain ⟨-, rfl⟩ := h
  exact ⟨_, rfl⟩

/-- Commands other than dig and place leave blocks and items alone, and what they take into the hand
is from the inventory. -/
theorem execute_eq_ok_of_ne {op : Op} (hdig : op ≠ .dig) (hplace : op ≠ .place)
    (h : op.execute args world = (.ok notes, after)) :
    after.overrides = world.overrides ∧ after.inventory = world.inventory ∧
      (after.held = world.held ∨ ∃ item, world.count item ≠ 0 ∧ after.held = some item) := by
  cases op with
  | move =>
    obtain ⟨pose, rfl⟩ := executeMove_eq_ok h
    exact ⟨rfl, rfl, .inl rfl⟩
  | goto =>
    obtain ⟨pose, rfl⟩ := executeMove_eq_ok h
    exact ⟨rfl, rfl, .inl rfl⟩
  | turn =>
    obtain ⟨pose, rfl⟩ := executeTurn_eq_ok h
    exact ⟨rfl, rfl, .inl rfl⟩
  | turnFace =>
    obtain ⟨pose, rfl⟩ := executeTurnFace_eq_ok h
    exact ⟨rfl, rfl, .inl rfl⟩
  | dig => exact absurd rfl hdig
  | place => exact absurd rfl hplace
  | equip =>
    obtain ⟨item, howned, rfl⟩ := executeEquip_eq_ok h
    exact ⟨rfl, rfl, .inr ⟨item, howned, rfl⟩⟩
  | scan =>
    obtain ⟨scans, -, rfl⟩ := executeScan_eq_ok h
    exact ⟨rfl, rfl, .inl rfl⟩
  | wait =>
    cases h
    exact ⟨rfl, rfl, .inl rfl⟩
  | log =>
    obtain ⟨logged, rfl⟩ := executeLog_eq_ok h
    exact ⟨rfl, rfl, .inl rfl⟩

end Op

end

end BlockScript.Simulation
