import BlockScript.Binary64
import BlockScript.Space.Position

/-!
# Headings

A yaw is an angle in radians, counter-clockwise seen from above, with north at zero. It snaps to the
nearest of four headings; exactly between two of them the earlier in the order north, east, south,
west wins.
-/
namespace BlockScript
set_option autoImplicit false

namespace Angle

def half : Float := Float.ofBits 0x400921fb54442d18

def full : Float := Float.ofBits 0x401921fb54442d18

def quarter : Float := Float.ofBits 0x3ff921fb54442d18

/-- The angle less whole turns, in `[0, full]`; an angle that is not finite has none. -/
def wrap (yaw : Float) : Float :=
  match Binary64.ofFloat? yaw, Binary64.ofFloat? full with
  | some a, some b =>
    let r := (a.remainder b).toFloat
    if r < 0 then r + full else r
  | _, _ => 0.0 / 0.0

end Angle

inductive Heading where
  | north
  | east
  | south
  | west
deriving DecidableEq, Inhabited

namespace Heading

def all : List Heading := [north, east, south, west]

def center : Heading → Float
  | north => 0.0
  | west => Angle.half / 2.0
  | south => Angle.half
  | east => 3.0 * Angle.half / 2.0

/-- Distance on the circle between a wrapped yaw and the center of a heading. -/
def turnTo (heading : Heading) (yaw : Float) : Float :=
  let d := (yaw - heading.center).abs
  if d < Angle.full - d then d else Angle.full - d

/-- The nearest heading; a yaw that is not finite faces north. -/
def ofYaw (yaw : Float) : Heading :=
  let wrapped := Angle.wrap yaw
  let nearer (best : Heading × Float) (heading : Heading) : Heading × Float :=
    if heading.turnTo wrapped < best.2 then (heading, heading.turnTo wrapped) else best
  (all.foldl nearer (north, 1.0 / 0.0)).1

def forward : Heading → Position
  | north => ⟨0, 0, -1⟩
  | east => ⟨1, 0, 0⟩
  | south => ⟨0, 0, 1⟩
  | west => ⟨-1, 0, 0⟩

def right : Heading → Position
  | north => ⟨1, 0, 0⟩
  | east => ⟨0, 0, 1⟩
  | south => ⟨-1, 0, 0⟩
  | west => ⟨0, 0, -1⟩

def name : Heading → String
  | north => "north"
  | east => "east"
  | south => "south"
  | west => "west"

/-- Full names and first letters, in either case. -/
def ofName? (name : String) : Option Heading :=
  let lower := String.ofList (name.toList.map Char.toLower)
  if lower = "n" ∨ lower = "north" then some north
  else if lower = "e" ∨ lower = "east" then some east
  else if lower = "s" ∨ lower = "south" then some south
  else if lower = "w" ∨ lower = "west" then some west
  else none

end Heading

/-- Where the actor stands and which way it faces, as a world reports it. -/
structure Pose where
  yaw : Float
  position : Position

/-- Heading and origin that a selector is resolved against. -/
structure Orientation where
  heading : Heading
  position : Position

namespace Pose

def heading (pose : Pose) : Heading := Heading.ofYaw pose.yaw

def orientation (pose : Pose) : Orientation := ⟨pose.heading, pose.position⟩

end Pose

end BlockScript
