import BlockScript.Json.Record
import BlockScript.Space.Selector
import BlockScript.Token.Location
import BlockScript.World.Block

/-!
# Places, selectors and blocks in JSON
-/
namespace BlockScript
set_option autoImplicit false

namespace Location

def toJson (loc : Location) : Json :=
  .object [("line", .int loc.line), ("column", .int loc.column)]

def ofJson? (json : Json) : Option Location := do
  let fields ← json.record? ["line", "column"]
  let line ← fields.required? "line" Json.nat64?
  let column ← fields.required? "column" Json.nat64?
  return ⟨line, column⟩

end Location

namespace Position

def toJson (p : Position) : Json :=
  .object [("x", .int p.x.toInt), ("y", .int p.y.toInt), ("z", .int p.z.toInt)]

def ofJson? (json : Json) : Option Position := do
  let fields ← json.record? ["x", "y", "z"]
  let x ← fields.required? "x" Json.int32?
  let y ← fields.required? "y" Json.int32?
  let z ← fields.required? "z" Json.int32?
  return ⟨x, y, z⟩

end Position

namespace Axis

/-- Only the upper-case letter names an axis here. -/
def ofJson? (json : Json) : Option Axis := do
  let name ← json.choice? .fresh
  all.find? fun axis => axis.letter.toString = name

end Axis

namespace Term

def toJson (term : Term) : Json :=
  .object [("axis", .string term.axis.letter.toString), ("magnitude", .int term.magnitude.toInt)]

def ofJson? (json : Json) : Option Term := do
  let fields ← json.record? ["axis", "magnitude"]
  let axis ← fields.required? "axis" Axis.ofJson?
  let magnitude ← fields.required? "magnitude" Json.int32?
  return ⟨axis, magnitude⟩

end Term

namespace Selector

def toJson (selector : Selector) : Json :=
  .object [("terms", .array (selector.terms.map Term.toJson))]

def ofJson? (json : Json) : Option Selector := do
  let fields ← json.record? ["terms"]
  let terms ← fields.required? "terms" (Json.list? Term.ofJson?)
  return ⟨terms⟩

end Selector

namespace Block

def toJson (block : Block) : Json :=
  .object ([("name", .string block.name)] ++
    if block.properties.isEmpty then []
    else [("properties", Json.ofDict .string block.properties)])

def ofJson? (json : Json) : Option Block := do
  let fields ← json.record? ["name", "properties"]
  let name ← fields.required? "name" Json.string?
  let properties ← fields.optional? "properties" Dict.empty (Json.dict? Json.string?)
  return ⟨name, properties⟩

end Block

namespace Query

def toJson (query : Query) : Json :=
  .object ([("criteria", Json.ofDict .string query.criteria)] ++
    Json.member? "at" Position.toJson query.pin)

def ofJson? (json : Json) : Option Query := do
  let fields ← json.record? ["criteria", "at"]
  let criteria ← fields.required? "criteria" (Json.dict? Json.string?)
  let pin ← fields.optional? "at" none (Json.nullable? Position.ofJson?)
  return ⟨criteria, pin⟩

end Query

end BlockScript
