import BlockScript.World.Block

/-!
# Arguments of a command

What a handler is given: spatial values have become positions. A handler asks for an argument by
name, and failing that by place.
-/
namespace BlockScript
set_option autoImplicit false

inductive Argument where
  | int (value : Int64)
  | bool (value : Bool)
  | text (value : String)
  | position (value : Position)
  | query (value : Query)
deriving DecidableEq, Inhabited

namespace Argument

def int? : Argument → Option Int64
  | int n => some n
  | _ => none

def bool? : Argument → Option Bool
  | bool b => some b
  | _ => none

def text? : Argument → Option String
  | text s => some s
  | _ => none

/-- A pinned query stands for its position. -/
def position? : Argument → Option Position
  | position p => some p
  | query q => q.pin
  | _ => none

def query? : Argument → Option Query
  | query q => some q
  | _ => none

def render : Argument → String
  | int n => toString n.toInt
  | bool b => if b then "true" else "false"
  | text s => Text.quoted s
  | position p => p.render
  | query q => q.render

end Argument

structure Arguments where
  positional : List Argument
  named : Dict Argument
deriving DecidableEq, Inhabited

namespace Arguments

def none : Arguments := ⟨[], Dict.empty⟩

def push (args : Arguments) (value : Argument) : Arguments :=
  { args with positional := args.positional ++ [value] }

/-- Of two arguments with one name the later stays. -/
def insert (args : Arguments) (key : String) (value : Argument) : Arguments :=
  { args with named := args.named.insert key value }

def get? (args : Arguments) (index : Nat) (key : String) : Option Argument :=
  (args.named.get? key).or args.positional[index]?

def int? (args : Arguments) (index : Nat) (key : String) : Option Int64 :=
  (args.get? index key).bind Argument.int?

def text? (args : Arguments) (index : Nat) (key : String) : Option String :=
  (args.get? index key).bind Argument.text?

def position? (args : Arguments) (index : Nat) (key : String) : Option Position :=
  (args.get? index key).bind Argument.position?

def isEmpty (args : Arguments) : Bool := args.positional.isEmpty && args.named.isEmpty

end Arguments

end BlockScript
