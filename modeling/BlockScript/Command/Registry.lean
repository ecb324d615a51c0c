import BlockScript.Dict
import BlockScript.Text.Quoted
import BlockScript.Token.Lexer

/-!
# Registered names

Commands and predicates share one set of names. A name is taken only if a script can call it: it must
read as an identifier, be no keyword, no selector term and none of the built-in forms.
-/
namespace BlockScript
set_option autoImplicit false

/-- The names of the built-in expression forms and of the predicate that every run has. -/
def builtinNames : List String := ["world", "waypoint", "block", "last_ok"]

/-- A lone underscore is the sign for one block down and no name. -/
def isIdentifier (name : String) : Bool :=
  match name.toList with
  | [] => false
  | c :: rest =>
    name ≠ "_" && Lexer.isWordStart c && rest.all Lexer.isWordPart

inductive RegistryError where
  | invalidName (name : String)
  | keyword (name : String)
  | axisWord (name : String)
  | builtin (name : String)
  | duplicate (name : String)
deriving DecidableEq, Inhabited

def RegistryError.message : RegistryError → String
  | invalidName name => "'" ++ name ++ "' is not a valid identifier"
  | keyword name => "'" ++ name ++ "' is a reserved keyword"
  | axisWord name => "'" ++ name ++ "' would be read as a selector term"
  | builtin name => "'" ++ name ++ "' is a built-in name"
  | duplicate name => "'" ++ name ++ "' is already registered"

/-- Commands of type `α` and predicates of type `β` under their names. -/
structure Registry (α β : Type) where
  commands : Dict α
  predicates : Dict β

namespace Registry

variable {α β : Type}

def empty : Registry α β := ⟨Dict.empty, Dict.empty⟩

def checkName (registry : Registry α β) (name : String) : Except RegistryError Unit :=
  if !isIdentifier name then .error (.invalidName name)
  else if (Keyword.ofWord? name).isSome then .error (.keyword name)
  else if Axis.isWord name.toList then .error (.axisWord name)
  else if builtinNames.contains name then .error (.builtin name)
  else if registry.commands.contains name || registry.predicates.contains name then
    .error (.duplicate name)
  else .ok ()

def addCommand (registry : Registry α β) (name : String) (handler : α) :
    Except RegistryError (Registry α β) :=
  match registry.checkName name with
  | .error error => .error error
  | .ok () => .ok { registry with commands := registry.commands.insert name handler }

def addPredicate (registry : Registry α β) (name : String) (handler : β) :
    Except RegistryError (Registry α β) :=
  match registry.checkName name with
  | .error error => .error error
  | .ok () => .ok { registry with predicates := registry.predicates.insert name handler }

def command? (registry : Registry α β) (name : String) : Option α := registry.commands.get? name

def predicate? (registry : Registry α β) (name : String) : Option β :=
  registry.predicates.get? name

def hasCommand (registry : Registry α β) (name : String) : Bool := registry.commands.contains name

def hasPredicate (registry : Registry α β) (name : String) : Bool :=
  registry.predicates.contains name

def commandNames (registry : Registry α β) : List String := registry.commands.keys

def predicateNames (registry : Registry α β) : List String := registry.predicates.keys

def renderNames (names : List String) : String :=
  "[" ++ String.intercalate ", " (names.map Text.quoted) ++ "]"

/-- All names, for a reader who looks for a missing one. -/
def describe (registry : Registry α β) : String :=
  "CommandRegistry \x7b commands: " ++ renderNames registry.commandNames ++ ", predicates: " ++
    renderNames registry.predicateNames ++ " \x7d"

end Registry

end BlockScript
