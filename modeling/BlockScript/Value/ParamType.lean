/-!
# Parameter types

The types that a macro or a stored function may declare for a parameter.
-/
namespace BlockScript
set_option autoImplicit false

inductive ParamType where
  | int
  | bool
  | string
deriving DecidableEq, Inhabited

namespace ParamType

def all : List ParamType := [int, bool, string]

def name : ParamType → String
  | int => "int"
  | bool => "bool"
  | string => "string"

def ofName? (name : String) : Option ParamType := all.find? fun type => type.name = name

end ParamType

end BlockScript
