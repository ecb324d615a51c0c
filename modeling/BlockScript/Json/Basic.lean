import BlockScript.Dict

/-!
# JSON values

Members of an object keep their order, and a key may stand twice. A number is whole or binary64, as
its text decides. A text can be well written and yet hold parts that have no value here: a number
beyond binary64, half of a surrogate pair, or nesting that is too deep. Such a part stays in its place
as `unread`, so that a record can pass over it where it ignores the member.
-/
namespace BlockScript
set_option autoImplicit false

inductive Json where
  | null
  | bool (value : Bool)
  | int (value : Int)
  | float (value : Float)
  | string (value : String)
  | array (items : List Json)
  | object (members : List (String × Json))
  /-- A part that is well written but has no value. -/
  | unread
deriving Inhabited

namespace Json

mutual

/-- The value with the members of every object in the order of their keys, the last of a key only. -/
def canonical : Json → Json
  | null => null
  | bool value => bool value
  | int value => int value
  | float value => float value
  | string value => string value
  | array items => array (canonicalItems items)
  | object members => object (Dict.ofList (canonicalMembers members)).entries
  | unread => unread

def canonicalItems : List Json → List Json
  | [] => []
  | item :: rest => canonical item :: canonicalItems rest

def canonicalMembers : List (String × Json) → List (String × Json)
  | [] => []
  | (key, value) :: rest => (key, canonical value) :: canonicalMembers rest

end

mutual

/-- No part is unread. -/
def isWhole : Json → Bool
  | unread => false
  | array items => wholeItems items
  | object members => wholeMembers members
  | _ => true

def wholeItems : List Json → Bool
  | [] => true
  | item :: rest => isWhole item && wholeItems rest

def wholeMembers : List (String × Json) → Bool
  | [] => true
  | (_, value) :: rest => isWhole value && wholeMembers rest

end

/-- A value none of whose parts is unread. -/
def whole? (json : Json) : Option Json := if json.isWhole then some json else none

end Json

end BlockScript
