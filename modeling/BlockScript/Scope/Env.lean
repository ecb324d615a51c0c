import BlockScript.Script.Basic
import BlockScript.Value.Basic

/-!
# Scopes

Variables and macros live in a stack of scopes above the global one. A macro is visible from every
scope inside its own. A variable is visible up to the nearest call frame, and in the global scope.
-/
namespace BlockScript
set_option autoImplicit false

structure Bindings where
  vars : Dict Value
  macros : Dict Macro

def Bindings.empty : Bindings := ⟨Dict.empty, Dict.empty⟩

/-- A scope that opens a call hides the variables below it. -/
structure Scope where
  bindings : Bindings
  opensCall : Bool

structure Env where
  /-- Innermost first. -/
  locals : List Scope
  globals : Bindings

namespace Env

def empty : Env := ⟨[], Bindings.empty⟩

instance : Inhabited Env := ⟨empty⟩

def push (env : Env) : Env := { env with locals := ⟨Bindings.empty, false⟩ :: env.locals }

def pushFrame (env : Env) : Env := { env with locals := ⟨Bindings.empty, true⟩ :: env.locals }

/-- The global scope stays. -/
def pop (env : Env) : Env := { env with locals := env.locals.tail }

def depth (env : Env) : Nat := env.locals.length + 1

/-- Changes the innermost scope. -/
def modifyInnermost (change : Bindings → Bindings) (env : Env) : Env :=
  match env.locals with
  | [] => { env with globals := change env.globals }
  | scope :: outer => { env with locals := { scope with bindings := change scope.bindings } :: outer }

def declare (env : Env) (name : String) (value : Value) : Env :=
  env.modifyInnermost fun b => { b with vars := b.vars.insert name value }

def define (env : Env) (m : Macro) : Env :=
  env.modifyInnermost fun b => { b with macros := b.macros.insert m.name m }

/-- Looks from the innermost scope to the nearest call frame. -/
def getLocal? (name : String) : List Scope → Option Value
  | [] => none
  | scope :: outer =>
    match scope.bindings.vars.get? name with
    | some value => some value
    | none => if scope.opensCall then none else getLocal? name outer

def get? (env : Env) (name : String) : Option Value :=
  (getLocal? name env.locals).or (env.globals.vars.get? name)

/-- Replaces the binding that `getLocal?` finds. -/
def setLocal? (name : String) (value : Value) : List Scope → Option (List Scope)
  | [] => none
  | scope :: outer =>
    if scope.bindings.vars.contains name then
      some ({ scope with
        bindings := { scope.bindings with vars := scope.bindings.vars.insert name value } } :: outer)
    else if scope.opensCall then none
    else (setLocal? name value outer).map (scope :: ·)

/-- Replaces the binding that `get?` finds; nothing if there is none. -/
def assign? (env : Env) (name : String) (value : Value) : Option Env :=
  match setLocal? name value env.locals with
  | some locals => some { env with locals := locals }
  | none =>
    if env.globals.vars.contains name then
      some { env with globals := { env.globals with vars := env.globals.vars.insert name value } }
    else none

def findMacro? (env : Env) (name : String) : Option Macro :=
  (env.locals.findSome? fun scope => scope.bindings.macros.get? name).or
    (env.globals.macros.get? name)

end Env

end BlockScript
