import BlockScript.Script.Basic
import BlockScript.Token.Lexer

/-!
# Reading programs

A parser takes tokens from the front of a list and fails at a place. Recursive parsers count down a
number that is at least the number of tokens left, and every recursive call stands behind a token
that has been taken, so the count never runs out before the tokens do. At zero they answer as they do
at the end of the text.
-/
namespace BlockScript
set_option autoImplicit false

def Parser (α : Type) := TokenList → Except SyntaxError (α × TokenList)

namespace Parser

variable {α β : Type}

instance : Monad Parser where
  pure a := fun input => .ok (a, input)
  bind p f := fun input =>
    match p input with
    | .error error => .error error
    | .ok (a, rest) => f a rest

def failAt (loc : Location) (fault : SyntaxFault) : Parser α := fun _ => .error ⟨loc, fault⟩

/-- The place of the next token, or of the end. -/
def here : Parser Location := fun input =>
  .ok ((input.tokens.head?.map Located.loc).getD input.stop, input)

def peek : Parser (Option Token) := fun input => .ok (input.tokens.head?.map Located.token, input)

/-- The token after the next one. -/
def peekSecond : Parser (Option Token) := fun input =>
  .ok (input.tokens.tail.head?.map Located.token, input)

def remaining : Parser Nat := fun input => .ok (input.tokens.length, input)

def advance : Parser Unit := fun input => .ok ((), { input with tokens := input.tokens.tail })

def fail (fault : SyntaxFault) : Parser α := do failAt (← here) fault

def failExpected (what : String) : Parser α := do fail (.expected what (← peek))

def eat (token : Token) : Parser Bool := do
  if (← peek) = some token then
    advance
    return true
  else
    return false

def expect (symbol : Symbol) (what : String) : Parser Location := do
  let loc ← here
  if (← peek) = some (.symbol symbol) then
    advance
    return loc
  else
    failExpected what

def expectName (what : String) : Parser String := do
  match ← peek with
  | some (.name spelling) =>
    advance
    return spelling
  | some (.axis _ _ spelling) => fail (.selectorAsName spelling what)
  | found => fail (.expected what found)

def expectText (what : String) : Parser String := do
  match ← peek with
  | some (.text value) =>
    advance
    return value
  | found => fail (.expected what found)

end Parser

namespace Script

open BlockScript.Parser

/-! ## Selectors -/

/-- One term, and more while a plus and another term follow. -/
def terms : Nat → Parser (List Term)
  | 0 => failExpected "selector term"
  | n + 1 => do
    match ← peek with
    | some (.axis axis magnitude _) =>
      advance
      let term : Term := ⟨axis, magnitude.getD 1⟩
      match ← peek, ← peekSecond with
      | some (.symbol .plus), some (.axis ..) =>
        advance
        return term :: (← terms n)
      | _, _ => return [term]
    | found => fail (.expected "selector term" found)

/-- At most one shorthand for one block up or down ends a selector. -/
def shorthand : Parser (List Term) := do
  if ← eat (.symbol .caret) then return [⟨.up, 1⟩]
  else if ← eat (.symbol .underscore) then return [⟨.down, 1⟩]
  else return []

def selector : Parser Selector := do
  let chain ← terms (← remaining)
  return ⟨chain ++ (← shorthand)⟩

/-! ## Expressions -/

def disjunctionOp? : Token → Option BinaryOp
  | .symbol .either => some .or
  | _ => none

def conjunctionOp? : Token → Option BinaryOp
  | .symbol .both => some .and
  | _ => none

def comparisonOp? : Token → Option BinaryOp
  | .symbol .equal => some .eq
  | .symbol .notEqual => some .ne
  | .symbol .less => some .lt
  | .symbol .lessEqual => some .le
  | .symbol .greater => some .gt
  | .symbol .greaterEqual => some .ge
  | _ => none

def additiveOp? : Token → Option BinaryOp
  | .symbol .plus => some .add
  | .symbol .minus => some .sub
  | _ => none

def multiplicativeOp? : Token → Option BinaryOp
  | .symbol .star => some .mul
  | .symbol .slash => some .div
  | _ => none

def unaryOp? : Token → Option UnaryOp
  | .symbol .bang => some .not
  | .symbol .minus => some .neg
  | _ => none

/-- More operands for a chain that already has its left end. -/
def chainFrom (operand : Parser Expr) (op? : Token → Option BinaryOp) : Nat → Expr → Parser Expr
  | 0, left => pure left
  | n + 1, left => do
    match (← peek).bind op? with
    | none => return left
    | some op =>
      advance
      let right ← operand
      chainFrom operand op? n (.binary op left right)

/-- Operands joined by operators of one level, grouped from the left. -/
def chain (operand : Parser Expr) (op? : Token → Option BinaryOp) : Parser Expr := do
  let left ← operand
  chainFrom operand op? (← remaining) left

/-- At most one comparison: a second operator is refused. -/
def comparison (operand : Parser Expr) : Parser Expr := do
  let left ← operand
  match (← peek).bind comparisonOp? with
  | none => return left
  | some op =>
    advance
    let right ← operand
    match (← peek).bind comparisonOp? with
    | some _ => fail .chainedComparison
    | none => return .binary op left right

def located (op? : Token → Option UnaryOp) (item : Located) : Option (UnaryOp × Location) :=
  (op? item.token).map fun op => (op, item.loc)

/-- The unary operators at the front, in order. -/
def unaryOps : Parser (List (UnaryOp × Location)) := fun input =>
  let isOp (item : Located) : Bool := (unaryOp? item.token).isSome
  .ok ((input.tokens.takeWhile isOp).filterMap (located unaryOp?),
    { input with tokens := input.tokens.dropWhile isOp })

def unary (primary : Parser Expr) : Parser Expr := do
  let ops ← unaryOps
  let operand ← primary
  return ops.foldr (fun (op, loc) inner => .unary op inner loc) operand

/-- The key of an argument, with its colon; an axis word may be a key too. -/
def key : Parser (Option String) := do
  match ← peek, ← peekSecond with
  | some (.name spelling), some (.symbol .colon) =>
    advance
    advance
    return some spelling
  | some (.axis _ _ spelling), some (.symbol .colon) =>
    advance
    advance
    return some spelling
  | _, _ => return none

def argsFrom (expr : Parser Expr) : Nat → Parser (List (Arg Expr))
  | 0 => failExpected "an expression"
  | n + 1 => do
    let key ← key
    let value ← expr
    if ← eat (.symbol .comma) then
      return ⟨key, value⟩ :: (← argsFrom expr n)
    else
      let _ ← expect .rightParen "')' or ','"
      return [⟨key, value⟩]

/-- Arguments after the opening parenthesis, up to and with the closing one. -/
def args (expr : Parser Expr) : Parser (List (Arg Expr)) := do
  if ← eat (.symbol .rightParen) then return []
  else argsFrom expr (← remaining)

/-- A query takes named arguments only. -/
def criteria : List (Arg Expr) → Parser (List (String × Expr))
  | [] => pure []
  | ⟨some key, value⟩ :: rest => do return (key, value) :: (← criteria rest)
  | ⟨none, value⟩ :: _ => failAt value.loc .positionalCriterion

def worldForm (expr : Parser Expr) (loc : Location) : Parser Expr := do
  let x ← expr
  let _ ← expect .comma "',' in world(x, y, z)"
  let y ← expr
  let _ ← expect .comma "',' in world(x, y, z)"
  let z ← expr
  let _ ← expect .rightParen "')'"
  return .world x y z loc

def waypointForm (loc : Location) : Parser Expr := do
  let name ← expectText "waypoint name string"
  let _ ← expect .rightParen "')'"
  return .waypoint name loc

/-- A name, or a call if a parenthesis follows. -/
def nameForm (expr : Parser Expr) (name : String) (loc : Location) : Parser Expr := do
  if ← eat (.symbol .leftParen) then
    if name = "world" then worldForm expr loc
    else if name = "waypoint" then waypointForm loc
    else if name = "block" then return .query (← criteria (← args expr)) loc
    else return .predicate name (← args expr) loc
  else
    return .ident name loc

def primary (expr : Parser Expr) : Parser Expr := do
  let loc ← here
  match ← peek with
  | some (.int value) =>
    advance
    return .int value loc
  | some (.text value) =>
    advance
    return .text value loc
  | some (.keyword .trueWord) =>
    advance
    return .bool true loc
  | some (.keyword .falseWord) =>
    advance
    return .bool false loc
  | some (.symbol .leftParen) =>
    advance
    let inner ← expr
    let _ ← expect .rightParen "')'"
    return inner
  | some (.axis ..) => return .selector (← selector) loc
  | some (.name name) =>
    advance
    nameForm expr name loc
  | found => fail (.expected "an expression" found)

/-- Or, and, comparison, sum, product and unary operators, from the loosest to the tightest. -/
def levels (primary : Parser Expr) : Parser Expr :=
  let product := chain (unary primary) multiplicativeOp?
  let sum := chain product additiveOp?
  let conjunction := chain (comparison sum) conjunctionOp?
  chain conjunction disjunctionOp?

def exprWithin : Nat → Parser Expr
  | 0 => failExpected "an expression"
  | n + 1 => levels (primary (exprWithin n))

def expr : Parser Expr := do exprWithin (← remaining)

/-! ## Statements -/

/-- Braces around the statements that `inner` reads. -/
def body (inner : Parser (List Statement)) : Parser (Body Statement) := do
  let loc ← expect .leftBrace "'\x7b'"
  let statements ← inner
  match ← peek with
  | none => failAt loc .unclosedBrace
  | some _ =>
    let _ ← expect .rightBrace "'\x7d'"
    return ⟨statements, loc⟩

def paramsFrom : Nat → List Param → Parser (List Param)
  | 0, _ => failExpected "a parameter type"
  | n + 1, before => do
    let typeLoc ← here
    let typeName ← expectName "a parameter type"
    match ParamType.ofName? typeName with
    | none => failAt typeLoc (.unknownParameterType typeName)
    | some type =>
      let loc ← here
      let name ← expectName "a parameter name"
      if before.any (fun param => param.name = name) then
        failAt loc (.duplicateParameter name)
      else
        let params := before ++ [⟨name, type⟩]
        if ← eat (.symbol .comma) then paramsFrom n params
        else return params

def params : Parser (List Param) := do
  if (← peek) = some (.symbol .rightParen) then return []
  else paramsFrom (← remaining) []

def define (inner : Parser (List Statement)) (loc : Location) : Parser Statement := do
  let name ← expectName "a macro name"
  let _ ← expect .leftParen "'(' after macro name"
  let params ← params
  let _ ← expect .rightParen "')'"
  return .define name params (← body inner) loc

/-- A condition whose `if` has been taken, with the chain of alternatives after it. -/
def cond (inner : Parser (List Statement)) (loc : Location) : Nat → Parser Statement
  | 0 => failExpected "'(' after if"
  | n + 1 => do
    let _ ← expect .leftParen "'(' after if"
    let test ← expr
    let _ ← expect .rightParen "')'"
    let yes ← body inner
    if ← eat (.keyword .elseWord) then
      let nested ← here
      if ← eat (.keyword .ifWord) then
        return .cond test yes (some ⟨[← cond inner nested n], nested⟩) loc
      else
        return .cond test yes (some (← body inner)) loc
    else
      return .cond test yes none loc

/-- What a `repeat` runs over: a count, or a variable that starts at zero. -/
def repetition (inner : Parser (List Statement)) (loc : Location) : Parser Statement := do
  let _ ← expect .leftParen "'(' after repeat"
  let start ← here
  match ← peek, ← peekSecond with
  | some (.name name), some (.symbol .colon) =>
    advance
    advance
    let stop ← expr
    let _ ← expect .rightParen "')'"
    return .repeatRange name (.int 0 start) stop none (← body inner) loc
  | some (.axis _ _ spelling), some (.symbol .colon) =>
    fail (.selectorAsName spelling "a loop variable")
  | _, _ =>
    let count ← expr
    let _ ← expect .rightParen "')'"
    return .repeatCount count (← body inner) loc

def loop (inner : Parser (List Statement)) (loc : Location) : Parser Statement := do
  let _ ← expect .leftParen "'(' after while"
  let test ← expr
  let _ ← expect .rightParen "')'"
  return .loop test (← body inner) loc

def assertion (loc : Location) : Parser Statement := do
  let _ ← expect .leftParen "'(' after assert"
  let test ← expr
  let message ← if ← eat (.symbol .comma) then some <$> expectText "assertion message string"
    else pure none
  let _ ← expect .rightParen "')'"
  let _ ← expect .semicolon "';'"
  return .assert test message loc

def binding (loc : Location) : Parser Statement := do
  let name ← expectName "a variable name"
  let _ ← expect .assign "'='"
  let value ← expr
  let _ ← expect .semicolon "';'"
  return .bind name value loc

/-- A statement that starts with a name: an assignment or a command. -/
def named (name : String) (loc : Location) : Parser Statement := do
  if ← eat (.symbol .assign) then
    let value ← expr
    let _ ← expect .semicolon "';'"
    return .assign name value loc
  else if ← eat (.symbol .leftParen) then
    let args ← args expr
    let _ ← expect .semicolon "';' after command"
    return .command name args loc
  else
    fail (.expectedCallOrAssign name (← peek))

def statement (inner : Parser (List Statement)) : Parser Statement := do
  let loc ← here
  match ← peek with
  | some (.symbol .semicolon) =>
    advance
    return .empty
  | some (.symbol .leftBrace) => return .block (← body inner)
  | some (.keyword .macroWord) =>
    advance
    define inner loc
  | some (.keyword .ifWord) =>
    advance
    cond inner loc (← remaining)
  | some (.keyword .repeatWord) =>
    advance
    repetition inner loc
  | some (.keyword .whileWord) =>
    advance
    loop inner loc
  | some (.keyword .assertWord) =>
    advance
    assertion loc
  | some (.keyword .letWord) =>
    advance
    binding loc
  | some (.name name) =>
    advance
    named name loc
  | some (.keyword .elseWord) => fail .elseWithoutIf
  | found => fail (.unexpected found)

/-- Macro names declared so far in a statement list; no name is declared twice. -/
def declare (statement : Statement) (seen : List String) : Parser (List String) :=
  match statement.macro? with
  | none => pure seen
  | some decl =>
    if decl.name ∈ seen then failAt decl.loc (.macroRedeclared decl.name)
    else pure (decl.name :: seen)

/-- Statements up to a closing brace or the end. -/
def statements : Nat → List String → Parser (List Statement)
  | 0, _ => pure []
  | n + 1, seen => do
    match ← peek with
    | none => return []
    | some (.symbol .rightBrace) => return []
    | some _ =>
      let first ← statement (statements n [])
      let seen ← declare first seen
      return first :: (← statements n seen)

def program : Parser Program := do
  let all ← statements (← remaining) []
  match ← peek with
  | none => return all
  | some _ => fail .unexpectedBrace

/-- A selector and nothing after it. -/
def selectorAlone : Parser Selector := do
  match ← peek with
  | some (.axis ..) =>
    let value ← selector
    match ← peek with
    | none => return value
    | found => fail (.afterSelector found)
  | found => fail (.expected "a selector" found)

end Script

/-- The value of a parser on all the tokens of a text. -/
def Parser.runOn {α : Type} (parser : Parser α) (source : String) : Except SyntaxError α := do
  let list ← tokenize source
  let (value, _) ← parser list
  return value

/-- The program that a text spells, or its first syntax error. -/
def parse (source : String) : Except SyntaxError Program := Script.program.runOn source

def parseSelector (source : String) : Except SyntaxError Selector :=
  Script.selectorAlone.runOn source

end BlockScript
