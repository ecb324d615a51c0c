import BlockScript.Space.Heading
import BlockScript.World.Attempt
import BlockScript.World.Block

/-!
# Looking at a world

A probe reads the pose of the actor and the blocks around it. It may count, wait or fail, so every
reading is an action on the state of the world. The search for a block walks the cube around an
origin and keeps the first of the nearest matches. It stops the program where the opposite of its
radius is out of range, and where it has to compare with a match whose squared distance is.
-/
namespace BlockScript
set_option autoImplicit false

inductive ProbeError where
  | unavailable (reason : String)
  | connectionLost (reason : String)
deriving DecidableEq, Inhabited

def ProbeError.message : ProbeError → String
  | unavailable reason => "World unavailable: " ++ reason
  | connectionLost reason => "Connection lost: " ++ reason

namespace Search

variable {σ : Type}

/-- The whole numbers from one to another. -/
def between (least greatest : Int32) : List Int32 :=
  (List.range (greatest.toInt - least.toInt + 1).toNat).map fun (i : Nat) =>
    Int32.ofInt (least.toInt + (i : Int))

/-- The whole numbers from minus the radius to the radius, the radius read as a signed number. -/
def offsets? (radius : UInt32) : Option (List Int32) := do
  let least ← fit32 (-radius.toInt32.toInt)
  return between least radius.toInt32

/-- The positions of the cube around an origin, ordered by x, then y, then z. -/
def cube (origin : Position) (offsets : List Int32) : List Position :=
  offsets.flatMap fun dx =>
    offsets.flatMap fun dy =>
      offsets.map fun dz => origin + ⟨dx, dy, dz⟩

/-- Nothing is compared as long as there is no best. -/
def isNearer? (origin position : Position) : Option Position → Option Bool
  | none => some true
  | some best => do
    let here ← position.distanceSq? origin
    let there ← best.distanceSq? origin
    return decide (here < there)

/-- What is the best after looking at one more position. -/
def better? (query : Query) (origin position : Position) (best : Option Position) :
    Option Block → Option (Option Position)
  | none => some best
  | some block =>
    if query.accepts block then
      (isNearer? origin position best).map fun nearer => if nearer then some position else best
    else some best

def nearest (blockAt : Position → Act σ (Except ProbeError (Option Block))) (query : Query)
    (origin : Position) :
    List Position → Option Position → Attempt σ ProbeError (Option Position)
  | [], best => pure best
  | position :: rest, best => do
    let block ← .ofAct (blockAt position)
    let best ← .checked .distance (better? query origin position best block)
    nearest blockAt query origin rest best

/-- A pinned query looks at one position, any other at the whole cube. -/
def find (blockAt : Position → Act σ (Except ProbeError (Option Block))) (query : Query)
    (origin : Position) (radius : UInt32) : Attempt σ ProbeError (Option Position) :=
  match query.pin with
  | none => do
    let offsets ← .checked .radius (offsets? radius)
    nearest blockAt query origin (cube origin offsets) none
  | some position => do
    let block ← .ofAct (blockAt position)
    return (block.filter query.accepts).map fun _ => position

end Search

/-- The readings that a run takes from its world. -/
structure Probe (σ : Type) where
  pose : Act σ (Except ProbeError Pose)
  /-- Nothing for a position that is not loaded. -/
  blockAt : Position → Act σ (Except ProbeError (Option Block))
  scan : UInt32 → Act σ (Except ProbeError Unit) := fun _ world => (.ok (), world)
  findBlock : Query → Position → UInt32 → Act σ (Except ProbeError (Option Position))

end BlockScript
