import BlockScript.Command.Arguments
import BlockScript.World.Probe

/-!
# Handlers

A command checks its arguments and then acts on the world; a predicate only answers. Both may fail,
and a lost connection is a failure of its own kind.
-/
namespace BlockScript
set_option autoImplicit false

inductive Fault where
  | failed (code message : String) (notes : List String)
  | invalidArgs (reason : String)
  | connectionLost (reason : String)
deriving DecidableEq, Inhabited

namespace Fault

def message : Fault → String
  | failed _ message _ => message
  | invalidArgs reason => "Invalid arguments: " ++ reason
  | connectionLost reason => "Connection lost: " ++ reason

def code : Fault → String
  | failed code _ _ => code
  | invalidArgs _ => "invalid_args"
  | connectionLost _ => "connection_lost"

def notes : Fault → List String
  | failed _ _ notes => notes
  | _ => []

end Fault

/-- A command: the check runs before the action, and neither runs if a position cannot be found. -/
structure CommandHandler (σ : Type) where
  validate : Arguments → Act σ (Except Fault Unit) := fun _ world => (.ok (), world)
  needsScan : Act σ Bool := fun world => (false, world)
  /-- Answers with notes for the result. -/
  execute : Arguments → Act σ (Except Fault (List String))

structure PredicateHandler (σ : Type) where
  evaluate : Arguments → Act σ (Except Fault Bool)

end BlockScript
