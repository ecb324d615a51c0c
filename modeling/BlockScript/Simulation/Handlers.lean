import BlockScript.Command.Handler
import BlockScript.Command.Registry
import BlockScript.Simulation.World

/-!
# Commands and predicates of the simulated world

A command is a sequence of steps on the world: what it needs is asked for, what it changes is changed
on the spot, and nothing is taken back where it ends early. A predicate only looks.
-/
namespace BlockScript.Simulation
set_option autoImplicit false

inductive Op where
  | move
  | goto
  | turn
  | turnFace
  | dig
  | place
  | equip
  | scan
  | wait
  | log
deriving DecidableEq, Inhabited

inductive Check where
  | isAir
  | canStand
  | safeStepUp
  | safeStepDown
  | blockIs
  | hasItem
  | isHazard
deriving DecidableEq, Inhabited

def requirePosition (args : Arguments) (index : Nat) (key : String) : Except Fault Position :=
  match args.position? index key with
  | some position => .ok position
  | none => .error (.invalidArgs ("expected a position for '" ++ key ++ "'"))

def requireText (args : Arguments) (index : Nat) (key : String) : Except Fault String :=
  match args.text? index key with
  | some text => .ok text
  | none => .error (.invalidArgs ("expected a string for '" ++ key ++ "'"))

/-- The radius of a scan, two if none is given. -/
def scanRadius (args : Arguments) : Except Fault UInt32 :=
  match args.int? 0 "r" with
  | none => .ok 2
  | some r =>
    if 0 ≤ r.toInt ∧ r.toInt < UInt32.size then .ok (UInt32.ofNat r.toInt.toNat)
    else .error (.invalidArgs ("scan radius out of range: " ++ toString r.toInt))

def maxWaitMs : Int64 := 300000

/-- The angle that a word for a turn adds. -/
def turnAngle? (word : String) : Option Float :=
  let lower := String.ofList (word.toList.map Char.toLower)
  if lower = "l90" ∨ lower = "left" then some Angle.quarter
  else if lower = "r90" ∨ lower = "right" then some (-Angle.quarter)
  else if lower = "180" ∨ lower = "around" then some Angle.half
  else none

def requireTurn (args : Arguments) : Except Fault Float := do
  let word ← requireText args 0 "dir"
  match turnAngle? word with
  | some angle => return angle
  | none => .error (.invalidArgs ("invalid turn token: " ++ word))

def requireFace (args : Arguments) : Except Fault Heading := do
  let word ← requireText args 0 "face"
  match Heading.ofName? word with
  | some heading => return heading
  | none => .error (.invalidArgs ("unknown face: " ++ word))

/-- Fails unless the actor reaches a position. -/
def requireReach (position : Position) : Attempt World Fault Unit := do
  let world ← .get
  let distance ← .checked .distance (world.pose.position.distanceSq? position)
  .ensure (distance ≤ World.reachSq) (.failed "out_of_reach" "target beyond reach (4.5)" [])

/-- How many of an item the actor carries, which has to be one at least. -/
def requireItem (item : String) : Attempt World Fault UInt32 := do
  let world ← .get
  .ensure (world.count item != 0) (.failed "unavailable" ("no " ++ item ++ " in inventory") [])
  return world.count item

/-- What a handler answers once the program has stopped. -/
def gone : Fault := .connectionLost "the program has stopped"

namespace Op

def validate (op : Op) (args : Arguments) : Except Fault Unit :=
  match op with
  | move => do
    let _ ← requirePosition args 0 "target"
  | goto => do
    let _ ← requirePosition args 0 "target"
  | dig => do
    let _ ← requirePosition args 0 "target"
  | place => do
    let _ ← requireText args 0 "id"
    let _ ← requirePosition args 1 "target"
  | equip => do
    let _ ← requireText args 0 "id"
  | turn => do
    let _ ← requireTurn args
  | turnFace => do
    let _ ← requireFace args
  | scan => do
    let _ ← scanRadius args
  | wait =>
    match args.int? 0 "ms" with
    | some ms =>
      if 0 ≤ ms ∧ ms ≤ maxWaitMs then .ok ()
      else .error (.invalidArgs "wait time must be between 0 and 300000ms")
    | none => .error (.invalidArgs "wait time must be between 0 and 300000ms")
  | log => .ok ()

def needsScan : Op → Bool
  | move => true
  | dig => true
  | place => true
  | _ => false

def executeMove (args : Arguments) : Attempt World Fault (List String) := do
  let target ← .require (requirePosition args 0 "target")
  let world ← .get
  .ensure (world.canStand target) (.failed "no_path" ("cannot reach " ++ target.render) [])
  .change fun world => { world with pose := { world.pose with position := target } }
  return ["at " ++ target.render]

def executeTurn (args : Arguments) : Attempt World Fault (List String) := do
  let angle ← .require (requireTurn args)
  .change fun world =>
    { world with pose := { world.pose with yaw := Angle.wrap (world.pose.yaw + angle) } }
  let world ← .get
  return ["facing " ++ world.pose.heading.name]

def executeTurnFace (args : Arguments) : Attempt World Fault (List String) := do
  let heading ← .require (requireFace args)
  .change fun world => { world with pose := { world.pose with yaw := heading.center } }
  return ["facing " ++ heading.name]

/-- The block becomes air and then goes into the inventory. -/
def executeDig (args : Arguments) : Attempt World Fault (List String) := do
  let target ← .require (requirePosition args 0 "target")
  let world ← .get
  .ensure (!world.gravityOverhead target)
    (.failed "invariant_violation" "gravity_block_overhead" [])
  let block := world.block target
  .ensure (!block.isAir) (.failed "no_target" "no block to dig" [])
  requireReach target
  .change fun world => world.setBlock target Block.air
  World.giveItem block.name 1
  return ["dug " ++ block.name ++ " at " ++ target.render]

/-- The item goes out of the hand with the last of it. -/
def executePlace (args : Arguments) : Attempt World Fault (List String) := do
  let id ← .require (requireText args 0 "id")
  let item := Block.bareName id
  let target ← .require (requirePosition args 1 "target")
  let count ← requireItem item
  let world ← .get
  let occupied := world.block target
  .ensure occupied.isAir
    (.failed "occupied" ("target not empty: " ++ occupied.name) ["target " ++ target.render])
  requireReach target
  .change fun world => world.setCount item (count - 1)
  .change fun world =>
    { world with held := if count = 1 ∧ world.held = some item then none else world.held }
  .change fun world => world.setBlock target (Block.plain (Block.namespaced item))
  return ["placed " ++ item ++ " at " ++ target.render]

def executeEquip (args : Arguments) : Attempt World Fault (List String) := do
  let id ← .require (requireText args 0 "id")
  let item := Block.bareName id
  let _ ← requireItem item
  .change fun world => { world with held := some item }
  return ["holding " ++ item]

def executeScan (args : Arguments) : Attempt World Fault (List String) := do
  let radius ← .require (scanRadius args)
  World.scan
  return ["scanned r=" ++ toString radius.toNat]

/-- A text goes into the log as it is, any other argument as it is shown. -/
def logText : Argument → String
  | .text s => s
  | argument => argument.render

def executeLog (args : Arguments) : Attempt World Fault (List String) := do
  let parts := args.positional ++ args.named.entries.map Prod.snd
  let line := String.intercalate " " (parts.map logText)
  .change fun world => { world with logged := line :: world.logged }
  return [line]

/-- Answers with notes for the result. -/
def execute (op : Op) (args : Arguments) : Attempt World Fault (List String) :=
  match op with
  | move => executeMove args
  | goto => executeMove args
  | turn => executeTurn args
  | turnFace => executeTurnFace args
  | dig => executeDig args
  | place => executePlace args
  | equip => executeEquip args
  | scan => executeScan args
  | wait => pure []
  | log => executeLog args

/-- No scan is asked for once the program has stopped. -/
def handler (op : Op) : CommandHandler (Live World) where
  validate args world := (op.validate args, world)
  needsScan world := (world.isOk && op.needsScan, world)
  execute args := Attempt.live gone (op.execute args)

/-- Every command by its name. -/
def table : List (String × Op) :=
  [("move", move), ("goto", goto), ("turn", turn), ("turn_face", turnFace), ("dig", dig),
    ("break", dig), ("place", place), ("equip", equip), ("scan", scan), ("wait", wait),
    ("log", log)]

end Op

namespace Check

def evaluate (check : Check) (args : Arguments) (world : World) : Except Fault Bool :=
  match check with
  | isAir => do
    let p ← requirePosition args 0 "target"
    return (world.block p).isAir
  | canStand => do
    let p ← requirePosition args 0 "target"
    return world.canStand p
  | safeStepUp => do
    let p ← requirePosition args 0 "target"
    return (world.block p).isSolid && (world.block (p + Position.up)).isAir &&
      (world.block (p + ⟨0, 2, 0⟩)).isAir
  | safeStepDown => do
    let p ← requirePosition args 0 "target"
    return (world.block (p + Position.down)).isSolid && (world.block p).isAir &&
      (world.block (p + Position.up)).isAir
  | blockIs => do
    let p ← requirePosition args 0 "target"
    let wanted ← requireText args 1 "id"
    return Block.bareName (world.block p).name = Block.bareName wanted
  | hasItem => do
    let item ← requireText args 0 "id"
    return world.itemCount item > 0
  | isHazard => do
    let tag ← requireText args 0 "tag"
    if tag = "gravel_overhead" then return world.gravityOverhead world.pose.position
    else if tag = "lava_near" then return world.lavaNear
    else return false

def handler (check : Check) : PredicateHandler (Live World) where
  evaluate args := Attempt.live gone (.ofAct fun world => (check.evaluate args world, world))

/-- Every predicate by its name. -/
def table : List (String × Check) :=
  [("is_air", isAir), ("can_stand", canStand), ("safe_step_up", safeStepUp),
    ("safe_step_down", safeStepDown), ("block_is", blockIs), ("has_item", hasItem),
    ("is_hazard", isHazard)]

end Check

def registry :
    Except RegistryError (Registry (CommandHandler (Live World)) (PredicateHandler (Live World))) := do
  let commands ← Op.table.foldlM (fun r (name, op) => r.addCommand name op.handler) Registry.empty
  Check.table.foldlM (fun r (name, check) => r.addPredicate name check.handler) commands

end BlockScript.Simulation
