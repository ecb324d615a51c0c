import BlockScript.World.Probe
import Std.Data.ExtTreeMap

/-!
# A simulated world

Stone up to the ground level and air above it, except where a block has been set. The actor has a
pose, an inventory of items by their names without namespace, and at most one item in hand.
-/
namespace BlockScript.Simulation
set_option autoImplicit false

structure World where
  pose : Pose
  /-- The blocks that have been set. -/
  overrides : Std.ExtTreeMap Position Block Position.order
  inventory : Dict UInt32
  held : Option String
  /-- How often the world has been scanned. -/
  scans : UInt32
  /-- What has been logged, newest first. -/
  logged : List String

namespace World

/-- The height of the highest stone. -/
def groundLevel : Int32 := 63

/-- The block of a position at which none has been set. -/
def terrain (position : Position) : Block :=
  if position.y ≤ groundLevel then Block.plain (Block.namespaced "stone") else Block.air

def ofPose (pose : Pose) : World :=
  { pose, overrides := ∅, inventory := Dict.empty, held := none, scans := 0, logged := [] }

/-- The actor stands on the ground at the origin and faces north. -/
def flat : World := ofPose ⟨0.0, ⟨0, groundLevel + 1, 0⟩⟩

instance : Inhabited World := ⟨flat⟩

/-- What has been logged, oldest first. -/
def messages (world : World) : List String := world.logged.reverse

def block (world : World) (position : Position) : Block :=
  world.overrides[position]?.getD (terrain position)

def setBlock (world : World) (position : Position) (block : Block) : World :=
  { world with overrides := world.overrides.insert position block }

/-- How many of an item, by its name without namespace, the actor carries. -/
def count (world : World) (item : String) : UInt32 := (world.inventory.get? item).getD 0

def setCount (world : World) (item : String) (count : UInt32) : World :=
  { world with inventory := world.inventory.insert item count }

def itemCount (world : World) (item : String) : UInt32 := world.count (Block.bareName item)

def giveItem {ε : Type} (item : String) (count : UInt32) : Attempt World ε Unit := do
  let world ← .get
  let total ← .checked .itemCount (fitCount ((world.itemCount item).toNat + count.toNat))
  .change fun world => world.setCount (Block.bareName item) total

def scan {ε : Type} : Attempt World ε Unit := do
  let world ← .get
  let scans ← .checked .scanCount (fitCount (world.scans.toNat + 1))
  .change fun world => { world with scans }

/-- Room for feet and head above something solid. -/
def canStand (world : World) (position : Position) : Bool :=
  !(world.block position).isSolid && !(world.block (position + Position.up)).isSolid &&
    (world.block (position + Position.down)).isSolid

/-- Whether a text occurs in another. -/
def occursIn (needle : List Char) : List Char → Bool
  | [] => needle.isEmpty
  | c :: cs => needle.isPrefixOf (c :: cs) || occursIn needle cs

def nameHas (block : Block) (part : String) : Bool := occursIn part.toList block.name.toList

/-- Whether one of the two blocks above a position would fall. -/
def gravityOverhead (world : World) (position : Position) : Bool :=
  [1, 2].any fun dy =>
    let block := world.block (position + ⟨0, dy, 0⟩)
    nameHas block "gravel" || nameHas block "sand"

def lavaNear (world : World) : Bool :=
  let around : List Int32 := [-2, -1, 0, 1, 2]
  around.any fun dx => around.any fun dz =>
    nameHas (world.block (world.pose.position + ⟨dx, 0, dz⟩)) "lava"

/-- Squared distance of four and a half blocks, rounded down. -/
def reachSq : Int64 := 20

/-- The world as it is, with every position loaded. -/
def blockAt (position : Position) : Act World (Except ProbeError (Option Block)) := fun world =>
  (.ok (some (world.block position)), world)

/-- What the probe answers once the program has stopped. -/
def gone : ProbeError := .connectionLost "the program has stopped"

def probe : Probe (Live World) where
  pose := Attempt.live gone (.ofAct fun world => (.ok world.pose, world))
  blockAt position := Attempt.live gone (.ofAct (blockAt position))
  scan _ := Attempt.live gone scan
  findBlock query origin radius := Attempt.live gone (Search.find blockAt query origin radius)

end World

end BlockScript.Simulation
