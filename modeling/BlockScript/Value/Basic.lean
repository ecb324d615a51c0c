import BlockScript.Json.Printer
import BlockScript.Space.Selector
import BlockScript.Text.Blank
import BlockScript.Value.ParamType
import BlockScript.World.Block

/-!
# Values

What an expression evaluates to. Selectors, world coordinates and waypoints are spatial: they stand
for a position that is fixed only when a command takes them.
-/
namespace BlockScript
set_option autoImplicit false

inductive Value where
  | int (value : Int64)
  | bool (value : Bool)
  | text (value : String)
  | selector (value : Selector)
  | world (position : Position)
  | waypoint (name : String)
  | query (value : Query)
deriving DecidableEq, Inhabited

namespace Value

def render : Value → String
  | int n => toString n.toInt
  | bool b => if b then "true" else "false"
  | text s => s
  | selector s => s.key
  | world position => "world" ++ position.render
  | waypoint name => "waypoint(" ++ Text.quoted name ++ ")"
  | query q => q.render

def typeName : Value → String
  | int _ => "int"
  | bool _ => "bool"
  | text _ => "string"
  | selector _ => "selector"
  | world _ => "world"
  | waypoint _ => "waypoint"
  | query _ => "block query"

def isSpatial : Value → Bool
  | selector _ => true
  | world _ => true
  | waypoint _ => true
  | _ => false

def hasType : Value → ParamType → Bool
  | int _, .int => true
  | bool _, .bool => true
  | text _, .string => true
  | _, _ => false

/-- The value of a stored default. A text may hold an int, and whatever is not null may stand for a
text, by its compact form. -/
def ofJson? : ParamType → Json → Option Value
  | .int, .int n => (fit64 n).map int
  | .int, .string s => (Text.readInt64 (Text.trimBlank s.toList)).map int
  | .bool, .bool b => some (bool b)
  | .string, .string s => some (text s)
  | .string, .null => none
  | .string, json => some (text json.canonical.render)
  | _, _ => none

theorem ofJson?_hasType {type : ParamType} {json : Json} {value : Value}
    (h : ofJson? type json = some value) : value.hasType type = true := by
  unfold ofJson? at h
  split at h
  · obtain ⟨n, _, rfl⟩ := Option.map_eq_some_iff.1 h
    rfl
  · obtain ⟨n, _, rfl⟩ := Option.map_eq_some_iff.1 h
    rfl
  · rw [← Option.some.inj h]
    rfl
  · rw [← Option.some.inj h]
    rfl
  · cases h
  · rw [← Option.some.inj h]
    rfl
  · cases h

end Value

end BlockScript
