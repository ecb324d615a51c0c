import BlockScript.Script.Basic
import BlockScript.Value.Basic

/-!
# Operators on values

Integers are computed exactly and refused outside 64 bits. A sum with a text on either side joins the
two displays. The connectives do not stand here: they decide before their right operand has a value.
-/
namespace BlockScript
set_option autoImplicit false

inductive OperatorError where
  | overflow (op : BinaryOp)
  | divisionByZero
  | mismatch (op : BinaryOp) (left right : Value)
  | notStrict (op : BinaryOp)
deriving DecidableEq, Inhabited

def OperatorError.message : OperatorError → String
  | overflow op => "integer overflow in '" ++ op.symbol ++ "'"
  | divisionByZero => "division by zero"
  | mismatch op left right =>
    "cannot apply '" ++ op.symbol ++ "' to " ++ left.typeName ++ " and " ++ right.typeName
  | notStrict op => "'" ++ op.symbol ++ "' must be evaluated lazily"

namespace Value

/-- An exact result that has 64 bits. -/
def exactly (op : BinaryOp) (n : Int) : Except OperatorError Value :=
  match fit64 n with
  | some m => .ok (int m)
  | none => .error (.overflow op)

def add (left right : Value) : Except OperatorError Value :=
  match left, right with
  | int a, int b => exactly .add (a.toInt + b.toInt)
  | text _, _ => .ok (text (left.render ++ right.render))
  | _, text _ => .ok (text (left.render ++ right.render))
  | _, _ => .error (.mismatch .add left right)

def sub (left right : Value) : Except OperatorError Value :=
  match left, right with
  | int a, int b => exactly .sub (a.toInt - b.toInt)
  | _, _ => .error (.mismatch .sub left right)

def mul (left right : Value) : Except OperatorError Value :=
  match left, right with
  | int a, int b => exactly .mul (a.toInt * b.toInt)
  | _, _ => .error (.mismatch .mul left right)

/-- The quotient is cut toward zero. -/
def div (left right : Value) : Except OperatorError Value :=
  match left, right with
  | int a, int b =>
    if b = 0 then .error .divisionByZero else exactly .div (a.toInt.tdiv b.toInt)
  | _, _ => .error (.mismatch .div left right)

/-- Ints are ordered by value, texts by code points, and nothing else is ordered. -/
def compare? (left right : Value) : Option Ordering :=
  match left, right with
  | int a, int b => some (compareOfLessAndEq a b)
  | text s, text t => some (compareOfLessAndEq s t)
  | _, _ => none

def ordered (op : BinaryOp) (left right : Value) (holds : Ordering → Bool) :
    Except OperatorError Value :=
  match compare? left right with
  | some ordering => .ok (bool (holds ordering))
  | none => .error (.mismatch op left right)

def apply (op : BinaryOp) (left right : Value) : Except OperatorError Value :=
  match op with
  | .add => add left right
  | .sub => sub left right
  | .mul => mul left right
  | .div => div left right
  | .eq => .ok (bool (left = right))
  | .ne => .ok (bool (left ≠ right))
  | .lt => ordered .lt left right Ordering.isLT
  | .le => ordered .le left right Ordering.isLE
  | .gt => ordered .gt left right Ordering.isGT
  | .ge => ordered .ge left right Ordering.isGE
  | .and => .error (.notStrict .and)
  | .or => .error (.notStrict .or)

end Value

end BlockScript
