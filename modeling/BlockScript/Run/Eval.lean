import BlockScript.Run.Machine

/-!
# Evaluating expressions

Operands are evaluated from left to right, and the connectives stop as soon as they are decided.
-/
namespace BlockScript
set_option autoImplicit false

namespace Run

variable {σ : Type} (setup : Setup σ)

/-! ## Positions -/

/-- Resolves a value against the pose of this moment. -/
def resolveNow (loc : Location) (value : Value) : Run σ Position := do
  let pose ← pose setup loc
  match ← ask (value.resolve (setup.context.waypoint setup.options.actor) pose.orientation) with
  | .ok position => pure position
  | .error error => fail (.unresolved error) loc

/-- Arguments of a command once its positions are known, or why one of them is not. -/
inductive Prepared where
  | ready (args : Arguments) (notes : List String)
  | lookupFailed (message : String) (notes : List String)

/-- The arguments that have been prepared so far. The pose is read for the first of them that
needs it, and kept. -/
structure Preparation where
  args : Arguments
  notes : List String
  origin : Option Orientation

namespace Preparation

def empty : Preparation := ⟨Arguments.none, [], none⟩

def add (p : Preparation) (key : Option String) (argument : Argument) : Preparation :=
  match key with
  | some key => { p with args := p.args.insert key argument }
  | none => { p with args := p.args.push argument }

def note (p : Preparation) (text : String) : Preparation := { p with notes := p.notes ++ [text] }

end Preparation

def originOf (loc : Location) (p : Preparation) : Run σ Orientation :=
  match p.origin with
  | some origin => pure origin
  | none => do return (← pose setup loc).orientation

/-- The argument that a value is without being resolved; a spatial value is none. -/
def plainArgument? : Value → Option Argument
  | .int n => some (.int n)
  | .bool b => some (.bool b)
  | .text s => some (.text s)
  | .query q => some (.query q)
  | _ => none

/-- Prepares arguments one by one; a missing waypoint ends the preparation. -/
def prepareFrom (loc : Location) : Preparation → List (Option String × Value) → Run σ Prepared
  | p, [] => pure (.ready p.args p.notes)
  | p, (key, value) :: rest =>
    match plainArgument? value with
    | some argument => prepareFrom loc (p.add key argument) rest
    | none => do
      let origin ← originOf setup loc p
      let p := { p with origin := some origin }
      match ← ask (value.resolve (setup.context.waypoint setup.options.actor) origin) with
      | .ok position =>
        let p := p.note (value.render ++ " -> " ++ position.render)
        prepareFrom loc (p.add key (.position position)) rest
      | .error (.overflow selector) => fail (.unresolved (.overflow selector)) loc
      | .error (.missingWaypoint name) =>
        let p := p.note
          ("waypoint '" ++ name ++ "' not found for actor '" ++ setup.options.actor ++ "'")
        pure (.lookupFailed (ResolveError.missingWaypoint name).message p.notes)
      | .error error =>
        let p := p.note ("could not resolve " ++ value.render)
        pure (.lookupFailed error.message p.notes)

def prepare (loc : Location) (values : List (Option String × Value)) : Run σ Prepared :=
  prepareFrom setup loc Preparation.empty values

/-! ## Values -/

/-- Where the search for a query starts. -/
def searchOrigin (loc : Location) (query : Query) : Run σ Position :=
  match query.pin with
  | some position => pure position
  | none => do return (← pose setup loc).position

/-- Booleans as they are, ints unless zero, queries if a block matches. -/
def truthy (loc : Location) : Value → Run σ Bool
  | .bool b => pure b
  | .int n => pure (n ≠ 0)
  | .query query => do
    let origin ← searchOrigin setup loc query
    let found ← ask (setup.context.probe.findBlock query origin setup.options.defaultScanRadius)
    return (← ofProbe loc found).isSome
  | value => fail (.notCondition value) loc

def asInt (what : String) (loc : Location) : Value → Run σ Int64
  | .int n => pure n
  | value => fail (.notInt what value) loc

def coordinate (loc : Location) (value : Value) : Run σ Int32 := do
  let n ← asInt "world coordinate" loc value
  match fit32 n.toInt with
  | some coordinate => pure coordinate
  | none => fail (.coordinateRange n) loc

/-- Adds a criterion to a query; the key `at` pins it. -/
def addCriterion (query : Query) (key : String) (loc : Location) (value : Value) : Run σ Query :=
  if key = "at" then do
    let position ← resolveNow setup loc value
    return { query with pin := some position }
  else
    match value with
    | .text s => pure { query with criteria := query.criteria.insert key s }
    | .int n => pure { query with criteria := query.criteria.insert key (Value.int n).render }
    | .bool b => pure { query with criteria := query.criteria.insert key (Value.bool b).render }
    | other => fail (.badCriterion key other) loc

def negate (loc : Location) : Value → Run σ Value
  | .int n =>
    match fit64 (-n.toInt) with
    | some m => pure (.int m)
    | none => fail .negationOverflow loc
  | value => fail (.notNegatable value) loc

def applyStrict (op : BinaryOp) (loc : Location) (left right : Value) : Run σ Value :=
  match Value.apply op left right with
  | .ok value => pure value
  | .error error => fail (.operator error) loc

/-! ## Predicates -/

def lastOk (loc : Location) (noArguments : Bool) : Run σ Bool := do
  if noArguments then
    let value ← read (·.lastOk.getD true)
    trace setup loc (.predicateEvaluated lastOkName value)
    return value
  else fail .lastOkArguments loc

def evaluatePredicate (name : String) (loc : Location) (handler : PredicateHandler σ)
    (values : List (Option String × Value)) : Run σ Bool := do
  match ← prepare setup loc values with
  | .lookupFailed message notes => failWith (.lookupFailed message) loc notes
  | .ready args _ =>
    match ← ask (handler.evaluate args) with
    | .ok value =>
      trace setup loc (.predicateEvaluated name value)
      return value
    | .error fault => fail (.predicateFault name fault) loc

/-! ## Expressions -/

mutual

def eval : Expr → Run σ Value
  | .int n _ => pure (.int n)
  | .text s _ => pure (.text s)
  | .bool b _ => pure (.bool b)
  | .ident name loc => do
    match ← read (·.env.get? name) with
    | some value => pure value
    | none => fail (.undeclared name) loc
  | .selector selector _ => pure (.selector selector)
  | .world x y z _ => do
    let x' ← coordinate x.loc (← eval x)
    let y' ← coordinate y.loc (← eval y)
    let z' ← coordinate z.loc (← eval z)
    return .world ⟨x', y', z'⟩
  | .waypoint name _ => pure (.waypoint name)
  | .query criteria _ => do
    return .query (← evalCriteria ⟨Dict.empty, none⟩ criteria)
  | .predicate name args loc => do
    if name = lastOkName then
      return .bool (← lastOk setup loc args.isEmpty)
    else
      match setup.context.registry.predicate? name with
      | none => fail (.unknownPredicate name) loc
      | some handler =>
        let values ← evalArgs args
        return .bool (← evaluatePredicate setup name loc handler values)
  | .unary op operand loc => do
    let value ← eval operand
    match op with
    | .not => return .bool (!(← truthy setup operand.loc value))
    | .neg => negate loc value
  | .binary op left right => do
    let lhs ← eval left
    match op with
    | .and =>
      if ← truthy setup left.loc lhs then
        let rhs ← eval right
        return .bool (← truthy setup right.loc rhs)
      else return .bool false
    | .or =>
      if ← truthy setup left.loc lhs then return .bool true
      else
        let rhs ← eval right
        return .bool (← truthy setup right.loc rhs)
    | strict =>
      let rhs ← eval right
      applyStrict strict left.loc lhs rhs

def evalCriteria (query : Query) : List (String × Expr) → Run σ Query
  | [] => pure query
  | (key, e) :: rest => do
    let value ← eval e
    let query ← addCriterion setup query key e.loc value
    evalCriteria query rest

def evalArgs : List (Arg Expr) → Run σ (List (Option String × Value))
  | [] => pure []
  | ⟨key, e⟩ :: rest => do
    let value ← eval e
    return (key, value) :: (← evalArgs rest)

end

def evalInt (what : String) (e : Expr) : Run σ Int64 := do
  asInt what e.loc (← eval setup e)

def evalCondition (e : Expr) : Run σ Bool := do
  truthy setup e.loc (← eval setup e)

end Run

end BlockScript
