import BlockScript.Json.Record
import BlockScript.Value.ParamType

/-!
# Stored functions

A stored function is a script body with typed parameters. Several versions of one name may be
stored together.
-/
namespace BlockScript
set_option autoImplicit false

structure FunctionParam where
  name : String
  type : ParamType
  optional : Bool
  default : Option Json

structure StoredFunction where
  name : String
  description : Option String
  params : List FunctionParam
  /-- The script text of the body. -/
  body : String
  version : UInt32

namespace ParamType

def ofJson? (json : Json) : Option ParamType := do ofName? (← json.choice? .fresh)

end ParamType

namespace FunctionParam

def required (name : String) (type : ParamType) : FunctionParam := ⟨name, type, false, none⟩

/-- A parameter that a call may leave out. -/
def withDefault (name : String) (type : ParamType) (default : Option Json) : FunctionParam :=
  ⟨name, type, true, default⟩

def toJson (param : FunctionParam) : Json :=
  .object ([("name", .string param.name), ("type", .string param.type.name),
      ("optional", .bool param.optional)] ++
    Json.member? "default" Json.canonical param.default)

def ofJson? (json : Json) : Option FunctionParam := do
  let fields ← json.record? ["name", "type", "optional", "default"]
  let name ← fields.required? "name" Json.string?
  let type ← fields.required? "type" ParamType.ofJson?
  let optional ← fields.optional? "optional" false Json.bool?
  let default ← fields.optional? "default" none (Json.nullable? Json.whole?)
  return ⟨name, type, optional, default⟩

end FunctionParam

namespace StoredFunction

def toJson (function : StoredFunction) : Json :=
  .object ([("name", .string function.name)] ++
    Json.member? "description" .string function.description ++
    [("args", .array (function.params.map FunctionParam.toJson)),
      ("body", .string function.body), ("version", .int function.version.toNat)])

def ofJson? (json : Json) : Option StoredFunction := do
  let fields ← json.record? ["name", "description", "args", "body", "version"]
  let name ← fields.required? "name" Json.string?
  let description ← fields.optional? "description" none (Json.nullable? Json.string?)
  let params ← fields.optional? "args" [] (Json.list? FunctionParam.ofJson?)
  let body ← fields.required? "body" Json.string?
  let version ← fields.optional? "version" 1 Json.uint32?
  return ⟨name, description, params, body, version⟩

/-- Of equal versions the later counts as the higher. -/
def higher (best : Option StoredFunction) (function : StoredFunction) : Option StoredFunction :=
  match best with
  | none => some function
  | some other => if other.version ≤ function.version then some function else some other

/-- The highest version of a name. -/
def latest? (name : String) (functions : List StoredFunction) : Option StoredFunction :=
  (functions.filter fun function => function.name = name).foldl higher none

end StoredFunction

end BlockScript
