import BlockScript.Script.Basic

/-!
# Names that a program calls and declares

`Program.calls` lists every call in the order of the text, commands and predicates alike, and
`Program.declared` every macro name, at any depth.
-/
namespace BlockScript
set_option autoImplicit false

structure Call where
  name : String
  loc : Location
  isPredicate : Bool
deriving DecidableEq, Inhabited

namespace Calls

mutual

def ofExpr : Expr → List Call
  | .int .. => []
  | .text .. => []
  | .bool .. => []
  | .ident .. => []
  | .selector .. => []
  | .waypoint .. => []
  | .world x y z _ => ofExpr x ++ ofExpr y ++ ofExpr z
  | .query criteria _ => ofCriteria criteria
  | .predicate name args loc => ⟨name, loc, true⟩ :: ofArgs args
  | .unary _ operand _ => ofExpr operand
  | .binary _ left right => ofExpr left ++ ofExpr right

def ofCriteria : List (String × Expr) → List Call
  | [] => []
  | (_, e) :: rest => ofExpr e ++ ofCriteria rest

def ofArgs : List (Arg Expr) → List Call
  | [] => []
  | ⟨_, e⟩ :: rest => ofExpr e ++ ofArgs rest

end

mutual

def ofStatement : Statement → List Call
  | .define _ _ body _ => ofBody body
  | .cond test yes no _ => ofExpr test ++ ofBody yes ++ ofAlternative no
  | .repeatCount count body _ => ofExpr count ++ ofBody body
  | .repeatRange _ start stop step body _ =>
    ofExpr start ++ ofExpr stop ++ (step.map ofExpr).getD [] ++ ofBody body
  | .loop test body _ => ofExpr test ++ ofBody body
  | .assert test _ _ => ofExpr test
  | .bind _ value _ => ofExpr value
  | .assign _ value _ => ofExpr value
  | .command name args loc => ⟨name, loc, false⟩ :: ofArgs args
  | .block body => ofBody body
  | .empty => []

def ofBody : Body Statement → List Call
  | ⟨statements, _⟩ => ofStatements statements

def ofAlternative : Option (Body Statement) → List Call
  | none => []
  | some body => ofBody body

def ofStatements : List Statement → List Call
  | [] => []
  | statement :: rest => ofStatement statement ++ ofStatements rest

end

end Calls

namespace Declared

mutual

def ofStatement : Statement → List String
  | .define name _ body _ => name :: ofBody body
  | .cond _ yes no _ => ofBody yes ++ ofAlternative no
  | .repeatCount _ body _ => ofBody body
  | .repeatRange _ _ _ _ body _ => ofBody body
  | .loop _ body _ => ofBody body
  | .assert .. => []
  | .bind .. => []
  | .assign .. => []
  | .command .. => []
  | .block body => ofBody body
  | .empty => []

def ofBody : Body Statement → List String
  | ⟨statements, _⟩ => ofStatements statements

def ofAlternative : Option (Body Statement) → List String
  | none => []
  | some body => ofBody body

def ofStatements : List Statement → List String
  | [] => []
  | statement :: rest => ofStatement statement ++ ofStatements rest

end

end Declared

def Program.calls (program : Program) : List Call := Calls.ofStatements program

def Program.declared (program : Program) : List String := Declared.ofStatements program

end BlockScript
