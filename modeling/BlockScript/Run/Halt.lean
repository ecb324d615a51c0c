import BlockScript.Command.Handler
import BlockScript.Report.Basic
import BlockScript.Run.Resolve
import BlockScript.Token.SyntaxError
import BlockScript.Value.Operator

/-!
# Why a run halts

Every cause that can end a run before the end of its script, with its kind and its wording.
-/
namespace BlockScript
set_option autoImplicit false

/-- Why the arguments of a call do not fit its parameters. -/
inductive BindError where
  | tooMany (params given : Nat)
  | noParameter (name : String)
  | boundTwice (param : String)
  | wrongType (param : String) (type : ParamType) (value : Value)
  | missing (param : String)
deriving DecidableEq, Inhabited

def BindError.message (callee : String) : BindError → String
  | tooMany params given =>
    "'" ++ callee ++ "' takes " ++ toString params ++ " argument(s) but " ++ toString given ++
      " were given"
  | noParameter name => "'" ++ callee ++ "' has no parameter '" ++ name ++ "'"
  | boundTwice param => "parameter '" ++ param ++ "' of '" ++ callee ++ "' is bound twice"
  | wrongType param type value =>
    "argument '" ++ param ++ "' of '" ++ callee ++ "' must be " ++ type.name ++ ", got " ++
      value.typeName
  | missing param => "missing argument '" ++ param ++ "' for '" ++ callee ++ "'"

inductive Halt where
  | cancelled
  | unknownCommand (name : String)
  | unknownPredicate (name : String)
  | undeclared (name : String)
  | assignUndeclared (name : String)
  | assertionFailed (message : Option String)
  | opLimit (limit : Nat) (op : String)
  | iterationLimit (limit : Nat)
  | callDepth (limit : Nat) (name : String)
  | functionUnavailable (name : String) (error : StoreError)
  | badDefault (param function : String) (type : ParamType)
  | badCall (callee : String) (error : BindError)
  | notInt (what : String) (value : Value)
  | notCondition (value : Value)
  | zeroStep
  | coordinateRange (value : Int64)
  | badCriterion (key : String) (value : Value)
  | negationOverflow
  | notNegatable (value : Value)
  | operator (error : OperatorError)
  /-- A position that was needed at once. -/
  | unresolved (error : ResolveError)
  /-- A position that the arguments of a predicate needed. -/
  | lookupFailed (message : String)
  | probe (error : ProbeError)
  | lastOkArguments
  | predicateFault (name : String) (fault : Fault)
  /-- A failed command that ends the run. -/
  | commandFailed (kind : ErrorKind) (op message : String)
deriving DecidableEq, Inhabited

namespace Halt

def kind : Halt → ErrorKind
  | cancelled => .cancelled
  | unknownCommand _ => .scope
  | unknownPredicate _ => .scope
  | undeclared _ => .scope
  | assignUndeclared _ => .scope
  | assertionFailed _ => .assertion
  | opLimit .. => .opLimitExceeded
  | iterationLimit _ => .opLimitExceeded
  | unresolved (.missingWaypoint _) => .absoluteLookup
  | unresolved (.store _) => .absoluteLookup
  | lookupFailed _ => .absoluteLookup
  | probe (.connectionLost _) => .connectionLost
  | predicateFault _ (.connectionLost _) => .connectionLost
  | commandFailed kind _ _ => kind
  | _ => .runtime

def message : Halt → String
  | cancelled => "run cancelled"
  | unknownCommand name => "unknown command '" ++ name ++ "'"
  | unknownPredicate name => "unknown predicate '" ++ name ++ "'"
  | undeclared name => "undeclared variable '" ++ name ++ "'"
  | assignUndeclared name => "assignment to undeclared variable '" ++ name ++ "'"
  | assertionFailed message => message.getD "assertion failed"
  | opLimit limit op => "op limit of " ++ toString limit ++ " reached before '" ++ op ++ "'"
  | iterationLimit limit => "loop iteration limit of " ++ toString limit ++ " exceeded"
  | callDepth limit name =>
    "maximum call depth of " ++ toString limit ++ " exceeded calling '" ++ name ++ "'"
  | functionUnavailable name error => "could not load function '" ++ name ++ "': " ++ error.message
  | badDefault param function type =>
    "default for '" ++ param ++ "' in function '" ++ function ++ "' is not a valid " ++ type.name
  | badCall callee error => error.message callee
  | notInt what value => what ++ " must be an int, got " ++ value.typeName
  | notCondition value => "condition must be a boolean, got " ++ value.typeName
  | zeroStep => "repeat step cannot be zero"
  | coordinateRange value => "world coordinate " ++ toString value.toInt ++ " is out of range"
  | badCriterion key value => "block query field '" ++ key ++ "' cannot be a " ++ value.typeName
  | negationOverflow => "integer overflow in '-'"
  | notNegatable value => "cannot negate " ++ value.typeName
  | operator error => error.message
  | unresolved error => error.message
  | lookupFailed message => message
  | probe (.connectionLost reason) => reason
  | probe (.unavailable reason) => "world probe unavailable: " ++ reason
  | lastOkArguments => "last_ok() takes no arguments"
  | predicateFault _ (.connectionLost reason) => reason
  | predicateFault name fault => "predicate '" ++ name ++ "' failed: " ++ fault.message
  | commandFailed _ op message => "'" ++ op ++ "' failed: " ++ message

end Halt

end BlockScript
