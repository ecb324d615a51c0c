import BlockScript.Json.Reader
import BlockScript.Store.Function
import BlockScript.Store.Waypoint

/-!
# Stores in files

Each actor has one file of waypoints and one of functions in a directory. A missing file holds
nothing; a file that cannot be read, or is not a JSON list of well-formed entries, is an error.
-/
namespace BlockScript
set_option autoImplicit false

inductive StoreError where
  | unreadable (reason : String)
  | malformed
deriving DecidableEq, Inhabited

def StoreError.message : StoreError → String
  | unreadable reason => "IO error: " ++ reason
  | malformed => "JSON parse error: not a list of well-formed entries"

/-- What reading a file gives. -/
inductive FileText where
  | missing
  | unreadable (reason : String)
  | text (content : String)
deriving DecidableEq, Inhabited

namespace Store

/-- Letters, digits, hyphens and underscores stay; any other character becomes an underscore. -/
def safeName (actor : String) : String :=
  String.ofList (actor.toList.map fun c => if c.isAlphanum || c = '-' || c = '_' then c else '_')

def waypointFile (actor : String) : String := safeName actor ++ "_waypoints.json"

def functionFile (actor : String) : String := safeName actor ++ "_functions.json"

def entries? {α : Type} (decode : Json → Option α) : FileText → Except StoreError (List α)
  | .missing => .ok []
  | .unreadable reason => .error (.unreadable reason)
  | .text content =>
    match (Json.skim content).bind (Json.list? decode) with
    | some list => .ok list
    | none => .error .malformed

/-- The first waypoint of the name. -/
def waypoint? (directory : String → FileText) (actor name : String) :
    Except StoreError (Option Waypoint) :=
  match entries? Waypoint.ofJson? (directory (waypointFile actor)) with
  | .ok waypoints => .ok (waypoints.find? fun waypoint => waypoint.name = name)
  | .error error => .error error

def function? (directory : String → FileText) (actor name : String) :
    Except StoreError (Option StoredFunction) :=
  match entries? StoredFunction.ofJson? (directory (functionFile actor)) with
  | .ok functions => .ok (StoredFunction.latest? name functions)
  | .error error => .error error

end Store

end BlockScript
