import BlockScript.Token.Basic
import BlockScript.Value.ParamType

/-!
# Programs

A program is a list of statements. Braces make a `Body`, which opens a scope of its own. Every
expression has a place; a binary operation stands where its left operand stands.
-/
namespace BlockScript
set_option autoImplicit false

inductive BinaryOp where
  | or
  | and
  | eq
  | ne
  | lt
  | le
  | gt
  | ge
  | add
  | sub
  | mul
  | div
deriving DecidableEq, Inhabited

def BinaryOp.symbol : BinaryOp → String
  | or => "||"
  | and => "&&"
  | eq => "=="
  | ne => "!="
  | lt => "<"
  | le => "<="
  | gt => ">"
  | ge => ">="
  | add => "+"
  | sub => "-"
  | mul => "*"
  | div => "/"

inductive UnaryOp where
  | not
  | neg
deriving DecidableEq, Inhabited

/-- An argument of a call, named if it has a key. -/
structure Arg (ε : Type) where
  key : Option String
  value : ε
deriving DecidableEq, Inhabited

inductive Expr where
  | int (value : Int64) (loc : Location)
  | text (value : String) (loc : Location)
  | bool (value : Bool) (loc : Location)
  | ident (name : String) (loc : Location)
  | selector (value : Selector) (loc : Location)
  | world (x y z : Expr) (loc : Location)
  | waypoint (name : String) (loc : Location)
  | query (criteria : List (String × Expr)) (loc : Location)
  | predicate (name : String) (args : List (Arg Expr)) (loc : Location)
  | unary (op : UnaryOp) (operand : Expr) (loc : Location)
  | binary (op : BinaryOp) (left right : Expr)
deriving Inhabited

def Expr.loc : Expr → Location
  | int _ loc => loc
  | text _ loc => loc
  | bool _ loc => loc
  | ident _ loc => loc
  | selector _ loc => loc
  | world _ _ _ loc => loc
  | waypoint _ loc => loc
  | query _ loc => loc
  | predicate _ _ loc => loc
  | unary _ _ loc => loc
  | binary _ left _ => left.loc

structure Param where
  name : String
  type : ParamType
deriving DecidableEq, Inhabited

/-- Statements between braces, with the place of the opening one. -/
structure Body (α : Type) where
  statements : List α
  loc : Location
deriving DecidableEq, Inhabited

inductive Statement where
  | define (name : String) (params : List Param) (body : Body Statement) (loc : Location)
  | cond (test : Expr) (yes : Body Statement) (no : Option (Body Statement)) (loc : Location)
  | repeatCount (count : Expr) (body : Body Statement) (loc : Location)
  /-- The variable runs from `start` towards `stop`, which it does not reach. -/
  | repeatRange (name : String) (start stop : Expr) (step : Option Expr) (body : Body Statement)
      (loc : Location)
  | loop (test : Expr) (body : Body Statement) (loc : Location)
  | assert (test : Expr) (message : Option String) (loc : Location)
  | bind (name : String) (value : Expr) (loc : Location)
  | assign (name : String) (value : Expr) (loc : Location)
  | command (name : String) (args : List (Arg Expr)) (loc : Location)
  | block (body : Body Statement)
  | empty
deriving Inhabited

/-- The place of a statement; a lone semicolon has none. -/
def Statement.loc? : Statement → Option Location
  | define _ _ _ loc => some loc
  | cond _ _ _ loc => some loc
  | repeatCount _ _ loc => some loc
  | repeatRange _ _ _ _ _ loc => some loc
  | loop _ _ loc => some loc
  | assert _ _ loc => some loc
  | bind _ _ loc => some loc
  | assign _ _ loc => some loc
  | command _ _ loc => some loc
  | block body => some body.loc
  | empty => none

abbrev Program := List Statement

/-- A declaration that a scope holds. -/
structure Macro where
  name : String
  params : List Param
  body : Body Statement
  loc : Location

/-- The declaration that a statement makes. -/
def Statement.macro? : Statement → Option Macro
  | define name params body loc => some ⟨name, params, body, loc⟩
  | _ => none

end BlockScript
