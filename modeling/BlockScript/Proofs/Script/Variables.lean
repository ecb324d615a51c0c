import BlockScript.Script.Basic

/-!
# The variables of a script

The names that an expression reads, and those that statements read or assign when they are run. The
body of a macro that is declared among the statements does not count: it is run in a frame of its
own, from which no local variable is seen.
-/
namespace BlockScript
set_option autoImplicit false

namespace Variables

mutual

def ofExpr : Expr → List String
  | .int .. => []
  | .text .. => []
  | .bool .. => []
  | .ident name _ => [name]
  | .selector .. => []
  | .waypoint .. => []
  | .world x y z _ => ofExpr x ++ ofExpr y ++ ofExpr z
  | .query criteria _ => ofCriteria criteria
  | .predicate _ args _ => ofArgs args
  | .unary _ operand _ => ofExpr operand
  | .binary _ left right => ofExpr left ++ ofExpr right

def ofCriteria : List (String × Expr) → List String
  | [] => []
  | (_, e) :: rest => ofExpr e ++ ofCriteria rest

def ofArgs : List (Arg Expr) → List String
  | [] => []
  | ⟨_, e⟩ :: rest => ofExpr e ++ ofArgs rest

end

mutual

def ofStatement : Statement → List String
  | .define .. => []
  | .cond test yes no _ => ofExpr test ++ ofBody yes ++ ofAlternative no
  | .repeatCount count body _ => ofExpr count ++ ofBody body
  | .repeatRange _ start stop step body _ =>
    ofExpr start ++ ofExpr stop ++ (step.map ofExpr).getD [] ++ ofBody body
  | .loop test body _ => ofExpr test ++ ofBody body
  | .assert test _ _ => ofExpr test
  | .bind _ value _ => ofExpr value
  | .assign name value _ => name :: ofExpr value
  | .command _ args _ => ofArgs args
  | .block body => ofBody body
  | .empty => []

def ofBody : Body Statement → List String
  | ⟨statements, _⟩ => ofStatements statements

def ofAlternative : Option (Body Statement) → List String
  | none => []
  | some body => ofBody body

def ofStatements : List Statement → List String
  | [] => []
  | statement :: rest => ofStatement statement ++ ofStatements rest

end

end Variables

end BlockScript
