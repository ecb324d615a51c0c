import BlockScript.Dict
import BlockScript.Space.Position
import BlockScript.Text.Quoted

/-!
# Blocks and queries

A block has a name, with or without its namespace, and state properties. A query asks for a name or
for properties, and may be pinned to one position.
-/
namespace BlockScript
set_option autoImplicit false

structure Block where
  name : String
  properties : Dict String
deriving DecidableEq, Inhabited

namespace Block

def plain (name : String) : Block := ⟨name, Dict.empty⟩

def namespaced (name : String) : String := "minecraft:" ++ name

/-- The name without its namespace, which is taken off once. -/
def bareName (name : String) : String :=
  match ("minecraft:".toList).isPrefixOf? name.toList with
  | some bare => String.ofList bare
  | none => name

def air : Block := plain (namespaced "air")

def airNames : List String := ["air", "cave_air", "void_air"]

def liquidNames : List String := ["water", "lava"]

def isAir (block : Block) : Bool := airNames.contains (bareName block.name)

def isLiquid (block : Block) : Bool := liquidNames.contains (bareName block.name)

/-- Whether the actor can stand on the block. -/
def isSolid (block : Block) : Bool := !block.isAir && !block.isLiquid

end Block

structure Query where
  criteria : Dict String
  /-- The only position that the query looks at, if it is pinned. -/
  pin : Option Position
deriving DecidableEq, Inhabited

namespace Query

/-- The keys that ask for the name of a block. -/
def nameKeys : List String := ["name", "id", "type"]

def criterionHolds (block : Block) (key expected : String) : Bool :=
  if nameKeys.contains key then Block.bareName block.name = Block.bareName expected
  else block.properties.get? key = some expected

def accepts (query : Query) (block : Block) : Bool :=
  query.criteria.entries.all fun (key, expected) => criterionHolds block key expected

def render (query : Query) : String :=
  let criteria := query.criteria.entries.map fun (key, value) => key ++ ": " ++ Text.quoted value
  let pin := query.pin.toList.map fun position => "at: " ++ position.render
  "block(" ++ String.intercalate ", " (criteria ++ pin) ++ ")"

end Query

end BlockScript
