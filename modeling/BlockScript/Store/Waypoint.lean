import BlockScript.Json.Record
import BlockScript.Space.Position

/-!
# Waypoints

A waypoint is a named point with binary64 coordinates. Its position is the block that holds it.
-/
namespace BlockScript
set_option autoImplicit false

structure Waypoint where
  name : String
  x : Float
  y : Float
  z : Float
  description : Option String

namespace Waypoint

/-- Rounds down and stops at the edge of the coordinate range; what is no number counts as zero. -/
def blockCoordinate (x : Float) : Int32 := x.floor.toInt32

def position (waypoint : Waypoint) : Position :=
  ⟨blockCoordinate waypoint.x, blockCoordinate waypoint.y, blockCoordinate waypoint.z⟩

def ofJson? (json : Json) : Option Waypoint := do
  let fields ← json.record? ["name", "x", "y", "z", "description"]
  let name ← fields.required? "name" Json.string?
  let x ← fields.required? "x" Json.float?
  let y ← fields.required? "y" Json.float?
  let z ← fields.required? "z" Json.float?
  let description ← fields.optional? "description" none (Json.nullable? Json.string?)
  return ⟨name, x, y, z, description⟩

end Waypoint

end BlockScript
