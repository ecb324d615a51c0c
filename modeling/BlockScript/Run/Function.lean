import BlockScript.Run.Machine
import BlockScript.Script.Calls
import BlockScript.Script.Parser

/-!
# Stored functions in a run

A function is looked up once, when its name is first met, and its body is read then. Names are
checked before anything runs: those of the script at its start, those of a function at its first call.
-/
namespace BlockScript
set_option autoImplicit false

namespace Run

variable {σ : Type} (setup : Setup σ)

/-- A body that cannot be read halts the run at the place of the error in that body. -/
def failBody (function : StoredFunction) (loc : Location) (error : SyntaxError) {α : Type} :
    Run σ α := fun state =>
  (.error
    { kind := .malformed
      message := "in function '" ++ function.name ++ "': " ++ error.render
      loc := some error.loc
      lastOpIndex := none
      op := none
      notes := ["called at " ++ loc.render]
      stamp := state.journal.createdAt }, state)

def loadParam (function : String) (loc : Location) (param : FunctionParam) : Run σ CallParam :=
  match param.default with
  | none => pure ⟨param.name, param.type, none, param.optional⟩
  | some json =>
    match Value.ofJson? param.type json with
    | some value => pure ⟨param.name, param.type, some value, param.optional⟩
    | none => fail (.badDefault param.name function param.type) loc

def loadParams (function : String) (loc : Location) : List FunctionParam → Run σ (List CallParam)
  | [] => pure []
  | param :: rest => do
    let first ← loadParam function loc param
    return first :: (← loadParams function loc rest)

def load (loc : Location) (function : StoredFunction) : Run σ Callee :=
  match parse function.body with
  | .error error => failBody function loc error
  | .ok body => do
    let params ← loadParams function.name loc function.params
    return ⟨params, body, some function.name⟩

def loadFound (loc : Location) : Option StoredFunction → Run σ (Option Callee)
  | none => pure none
  | some function => do return some (← load loc function)

/-- The stored function of a name, from memory if it has been met before. -/
def fetch (name : String) (loc : Location) : Run σ (Option Callee) := do
  match ← read (·.functions.get? name) with
  | some known => pure known
  | none =>
    match ← ask (setup.context.function setup.options.actor name) with
    | .error error => fail (.functionUnavailable name error) loc
    | .ok found =>
      let callee ← loadFound loc found
      modify fun state => { state with functions := state.functions.insert name callee }
      return callee

/-! ## Checking names -/

def isKnown (declared : List String) (call : Call) : Run σ Bool := do
  if call.isPredicate then
    return call.name = lastOkName || setup.context.registry.hasPredicate call.name
  else if declared.contains call.name || (← read (·.env.findMacro? call.name)).isSome ||
      setup.context.registry.hasCommand call.name then
    return true
  else
    return (← fetch setup call.name call.loc).isSome

def unknown (call : Call) : Halt :=
  if call.isPredicate then .unknownPredicate call.name else .unknownCommand call.name

def checkCalls (declared : List String) : List Call → Run σ Unit
  | [] => pure ()
  | call :: rest => do
    if ← isKnown setup declared call then checkCalls declared rest
    else fail (unknown call) call.loc

/-- Refuses statements that call a name nobody knows. -/
def validate (statements : List Statement) : Run σ Unit :=
  checkCalls setup (Program.declared statements) (Program.calls statements)

end Run

end BlockScript
