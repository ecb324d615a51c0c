import BlockScript.Store.Files
import BlockScript.Value.Basic
import BlockScript.World.Probe

/-!
# From values to positions

Selectors are read from where the actor stands, waypoints from the store of the actor, and a pinned
query stands for its own position.
-/
namespace BlockScript
set_option autoImplicit false

inductive ResolveError where
  | missingWaypoint (name : String)
  | store (error : StoreError)
  | overflow (selector : Selector)
  | notSpatial (value : Value)
deriving DecidableEq, Inhabited

namespace ResolveError

/-- What kind of value has no position. -/
def describe : Value → String
  | .query _ => "an unpinned block query"
  | value => value.typeName

def message : ResolveError → String
  | missingWaypoint name => "unknown waypoint '" ++ name ++ "'"
  | store error => "waypoint lookup failed: " ++ error.message
  | overflow selector => selector.overflowMessage
  | notSpatial value => describe value ++ " is not a position"

end ResolveError

variable {σ : Type}

/-- Looks a waypoint up by its name. -/
abbrev WaypointLookup (σ : Type) := String → Act σ (Except StoreError (Option Waypoint))

/-- The position of what a lookup found. -/
def waypointPosition (name : String) :
    Except StoreError (Option Waypoint) → Except ResolveError Position
  | .error error => .error (.store error)
  | .ok none => .error (.missingWaypoint name)
  | .ok (some waypoint) => .ok waypoint.position

def Value.resolve (lookup : WaypointLookup σ) (origin : Orientation) (value : Value) :
    Act σ (Except ResolveError Position) := fun world =>
  match value with
  | .selector s =>
    match s.resolve? origin with
    | some position => (.ok position, world)
    | none => (.error (.overflow s), world)
  | .world position => (.ok position, world)
  | .waypoint name =>
    let (found, world) := lookup name world
    (waypointPosition name found, world)
  | .query q =>
    match q.pin with
    | some position => (.ok position, world)
    | none => (.error (.notSpatial value), world)
  | .int _ => (.error (.notSpatial value), world)
  | .bool _ => (.error (.notSpatial value), world)
  | .text _ => (.error (.notSpatial value), world)

end BlockScript
