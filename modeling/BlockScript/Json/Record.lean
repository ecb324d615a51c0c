import BlockScript.Integer
import BlockScript.Json.Basic

/-!
# Records in JSON

A record has declared names. It is written as an object, and read from an object or from a list of
values in the order of the names. Members of other names are ignored, but no declared name may stand
twice. A choice between several shapes is marked by a tag among the members.

What stands beside a tag can only be read once the tag is known, and until then it is held. So it must
be whole, members that are ignored later included. In return a choice in it may also be given by its
number.
-/
namespace BlockScript.Json
set_option autoImplicit false

/-! ## Plain values -/

def string? : Json → Option String
  | string s => some s
  | _ => none

def bool? : Json → Option Bool
  | bool b => some b
  | _ => none

/-- A whole number from zero up to, but not with, the bound. -/
def natBelow? (bound : Nat) : Json → Option Nat
  | int n => if 0 ≤ n ∧ n < bound then some n.toNat else none
  | _ => none

def nat64? : Json → Option Nat := natBelow? UInt64.size

def uint32? (json : Json) : Option UInt32 := (natBelow? UInt32.size json).map UInt32.ofNat

def int32? : Json → Option Int32
  | int n => fit32 n
  | _ => none

def int64? : Json → Option Int64
  | int n => fit64 n
  | _ => none

/-- Any number, a whole one rounded to the nearest. -/
def float? : Json → Option Float
  | int n =>
    let magnitude := (UInt64.ofNat n.natAbs).toFloat
    some (if n < 0 then -magnitude else magnitude)
  | float x => some x
  | _ => none

variable {α : Type}

/-- Null stands for nothing. -/
def nullable? (decode : Json → Option α) : Json → Option (Option α)
  | null => some none
  | json => (decode json).map some

def list? (decode : Json → Option α) : Json → Option (List α)
  | array items => items.mapM decode
  | _ => none

def decodeMembers (decode : Json → Option α) : List (String × Json) → Option (List (String × α))
  | [] => some []
  | (key, json) :: rest => do
    let value ← decode json
    return (key, value) :: (← decodeMembers decode rest)

/-- Every member of an object; of two with one key the later stays. -/
def dict? (decode : Json → Option α) : Json → Option (Dict α)
  | object members => (decodeMembers decode members).map Dict.ofList
  | _ => none

/-- Whether a value is read as it comes or was held beside a tag. -/
inductive Stage where
  | fresh
  | held
deriving DecidableEq, Inhabited

/-- The name of a choice without content: a text, or the only key of an object that holds null. In a
held value an empty object serves as null. -/
def choice? : Stage → Json → Option String
  | _, string name => some name
  | _, object [(name, null)] => some name
  | .held, object [(name, object [])] => some name
  | _, _ => none

/-! ## Records -/

/-- The members of declared names that are there. -/
structure Fields where
  members : List (String × Json)

def record? (names : List String) : Json → Option Fields
  | object members =>
    let known := members.filter fun (name, _) => names.contains name
    if (known.map Prod.fst).Nodup then some ⟨known⟩ else none
  | array items => if items.length ≤ names.length then some ⟨names.zip items⟩ else none
  | _ => none

namespace Fields

def required? (fields : Fields) (name : String) (decode : Json → Option α) : Option α :=
  (fields.members.lookup name).bind decode

/-- A member that may be missing. -/
def optional? (fields : Fields) (name : String) (missing : α) (decode : Json → Option α) :
    Option α :=
  match fields.members.lookup name with
  | none => some missing
  | some json => decode json

end Fields

/-- The name that a tag gives, or in a held value the one whose number it gives. -/
def tagName? (choices : List String) : Stage → Json → Option String
  | _, string name => some name
  | .held, int n => if 0 ≤ n then choices[n.toNat]? else none
  | _, _ => none

/-- The tag of a choice and the rest of its members. -/
def tagged? (tag : String) (choices : List String) (stage : Stage) (json : Json) :
    Option (String × Json) := do
  match ← json.whole? with
  | object members =>
    match members.filter fun (name, _) => name = tag with
    | [(_, choice)] =>
      return (← tagName? choices stage choice, object (members.filter fun (name, _) => name ≠ tag))
    | _ => none
  | array (choice :: items) => return (← tagName? choices stage choice, array items)
  | _ => none

/-! ## Writing -/

def ofStrings (texts : List String) : Json := array (texts.map string)

def ofDict (encode : α → Json) (dict : Dict α) : Json :=
  object (dict.entries.map fun (key, value) => (key, encode value))

/-- A member that is left out when there is nothing to write. -/
def member? (name : String) (encode : α → Json) : Option α → List (String × Json)
  | none => []
  | some value => [(name, encode value)]

/-- A list that is left out when it is empty. -/
def notesMember (name : String) (notes : List String) : List (String × Json) :=
  if notes.isEmpty then [] else [(name, ofStrings notes)]

/-- Puts a tag in front of the members of an object. -/
def withTag (tag choice : String) : Json → Json
  | object members => object ((tag, string choice) :: members)
  | json => json

end BlockScript.Json
