import BlockScript.Proofs.Script.Grammar
import BlockScript.Proofs.Token.Writing

/-!
# Printing programs

A program is written down token by token. Operands stand in parentheses, selectors have all their
magnitudes written out, and an alternative always has braces. What a program must be like so that it
can be written is said here too: names that are read as names, numbers that have a numeral, and the
few things that the grammar asks for.
-/
namespace BlockScript
set_option autoImplicit false

open Grammar (sign unarySign formNames macroNames)

/-! ## Tokens -/

namespace Tokens

def inParens (ts : List Token) : List Token :=
  .symbol .leftParen :: (ts ++ [.symbol .rightParen])

/-- Lists of tokens with commas between them. -/
def separated : List (List Token) → List Token
  | [] => []
  | ts :: rest => ts ++ if rest.isEmpty then [] else .symbol .comma :: separated rest

/-- The one token that the text of a key is read as. -/
def keyToken (key : String) : Token :=
  match tokenize key with
  | .ok ⟨[located], _⟩ => located.token
  | _ => .name key

def ofKey : Option String → List Token
  | none => []
  | some key => [keyToken key, .symbol .colon]

def ofTerms : List Term → List Token
  | [] => []
  | [term] => [.ofTerm term]
  | term :: rest => .ofTerm term :: .symbol .plus :: ofTerms rest

mutual

def ofExpr : Expr → List Token
  | .int value _ => [.int value]
  | .text value _ => [.text value]
  | .bool value _ => [.keyword (if value then .trueWord else .falseWord)]
  | .ident name _ => [.name name]
  | .selector value _ => ofTerms value.terms
  | .world x y z _ => .name "world" :: inParens (separated [ofExpr x, ofExpr y, ofExpr z])
  | .waypoint name _ => .name "waypoint" :: inParens [.text name]
  | .query criteria _ => .name "block" :: inParens (separated (ofCriteria criteria))
  | .predicate name args _ => .name name :: inParens (separated (ofArgs args))
  | .unary op operand _ => .symbol (unarySign op) :: inParens (ofExpr operand)
  | .binary op left right =>
    inParens (ofExpr left) ++ .symbol (sign op) :: inParens (ofExpr right)

def ofCriteria : List (String × Expr) → List (List Token)
  | [] => []
  | (key, e) :: rest => (ofKey (some key) ++ ofExpr e) :: ofCriteria rest

def ofArgs : List (Arg Expr) → List (List Token)
  | [] => []
  | ⟨key, e⟩ :: rest => (ofKey key ++ ofExpr e) :: ofArgs rest

end

def ofParams (params : List Param) : List Token :=
  separated (params.map fun param => [.name param.type.name, .name param.name])

def ofMessage : Option String → List Token
  | none => []
  | some message => [.symbol .comma, .text message]

mutual

def ofStatement : Statement → List Token
  | .define name params body _ =>
    .keyword .macroWord :: .name name :: (inParens (ofParams params) ++ ofBody body)
  | .cond test yes no _ =>
    .keyword .ifWord :: (inParens (ofExpr test) ++ (ofBody yes ++ ofAlternative no))
  | .repeatCount count body _ => .keyword .repeatWord :: (inParens (ofExpr count) ++ ofBody body)
  -- The start is zero and there is no step; neither is written.
  | .repeatRange name _ stop _ body _ =>
    .keyword .repeatWord :: (inParens (.name name :: .symbol .colon :: ofExpr stop) ++ ofBody body)
  | .loop test body _ => .keyword .whileWord :: (inParens (ofExpr test) ++ ofBody body)
  | .assert test message _ =>
    .keyword .assertWord :: (inParens (ofExpr test ++ ofMessage message) ++ [.symbol .semicolon])
  | .bind name value _ =>
    .keyword .letWord :: .name name :: .symbol .assign :: (ofExpr value ++ [.symbol .semicolon])
  | .assign name value _ =>
    .name name :: .symbol .assign :: (ofExpr value ++ [.symbol .semicolon])
  | .command name args _ =>
    .name name :: (inParens (separated (ofArgs args)) ++ [.symbol .semicolon])
  | .block body => ofBody body
  | .empty => [.symbol .semicolon]

def ofBody : Body Statement → List Token
  | ⟨statements, _⟩ => .symbol .leftBrace :: (ofStatements statements ++ [.symbol .rightBrace])

def ofAlternative : Option (Body Statement) → List Token
  | none => []
  | some body => .keyword .elseWord :: ofBody body

def ofStatements : List Statement → List Token
  | [] => []
  | statement :: rest => ofStatement statement ++ ofStatements rest

end

end Tokens

/-- The text of a program. -/
def Program.render (program : Program) : String :=
  String.ofList (Token.layout (Tokens.ofStatements program))

/-! ## Programs without places -/

namespace Unplaced

mutual

def expr : Expr → Expr
  | .int value _ => .int value default
  | .text value _ => .text value default
  | .bool value _ => .bool value default
  | .ident name _ => .ident name default
  | .selector value _ => .selector value default
  | .world x y z _ => .world (expr x) (expr y) (expr z) default
  | .waypoint name _ => .waypoint name default
  | .query criteria' _ => .query (criteria criteria') default
  | .predicate name args' _ => .predicate name (args args') default
  | .unary op operand _ => .unary op (expr operand) default
  | .binary op left right => .binary op (expr left) (expr right)

def criteria : List (String × Expr) → List (String × Expr)
  | [] => []
  | (key, e) :: rest => (key, expr e) :: criteria rest

def args : List (Arg Expr) → List (Arg Expr)
  | [] => []
  | ⟨key, e⟩ :: rest => ⟨key, expr e⟩ :: args rest

end

mutual

def statement : Statement → Statement
  | .define name params body' _ => .define name params (body body') default
  | .cond test yes no _ => .cond (expr test) (body yes) (alternative no) default
  | .repeatCount count body' _ => .repeatCount (expr count) (body body') default
  | .repeatRange name start stop step body' _ =>
    .repeatRange name (expr start) (expr stop) (step.map expr) (body body') default
  | .loop test body' _ => .loop (expr test) (body body') default
  | .assert test message _ => .assert (expr test) message default
  | .bind name value _ => .bind name (expr value) default
  | .assign name value _ => .assign name (expr value) default
  | .command name args' _ => .command name (args args') default
  | .block body' => .block (body body')
  | .empty => .empty

def body : Body Statement → Body Statement
  | ⟨list, _⟩ => ⟨statements list, default⟩

def alternative : Option (Body Statement) → Option (Body Statement)
  | none => none
  | some body' => some (body body')

def statements : List Statement → List Statement
  | [] => []
  | first :: rest => statement first :: statements rest

end

end Unplaced

/-- The program with all its places forgotten. -/
def Program.unplaced (program : Program) : Program := Unplaced.statements program

/-! ## Programs that can be written -/

/-- The name is read as an identifier. -/
def IsName (name : String) : Prop := ReadsAs name [.name name]

/-- The key of an argument is read as an identifier or as an axis token. -/
def IsKey (key : String) : Prop :=
  IsName key ∨ ∃ axis magnitude, ReadsAs key [.axis axis magnitude key]

/-- A selector has terms, and every magnitude has a numeral. -/
def Selector.WellFormed (selector : Selector) : Prop :=
  selector.terms ≠ [] ∧
    ∀ term ∈ selector.terms, Int32.minValue.toInt < term.magnitude.toInt ∧
      term.magnitude.toInt ≤ Int32.maxValue.toInt

namespace WellFormed

mutual

def expr : Expr → Prop
  | .int value _ => 0 ≤ value.toInt ∧ value.toInt ≤ Int64.maxValue.toInt
  | .text .. => True
  | .bool .. => True
  | .ident name _ => IsName name
  | .selector value _ => value.WellFormed
  | .world x y z _ => expr x ∧ expr y ∧ expr z
  | .waypoint .. => True
  | .query criteria' _ => criteria criteria'
  | .predicate name args' _ => (IsName name ∧ name ∉ formNames) ∧ args args'
  | .unary _ operand _ => expr operand
  | .binary _ left right => expr left ∧ expr right

def criteria : List (String × Expr) → Prop
  | [] => True
  | (key, e) :: rest => IsKey key ∧ expr e ∧ criteria rest

def args : List (Arg Expr) → Prop
  | [] => True
  | ⟨key, e⟩ :: rest => (∀ k ∈ key, IsKey k) ∧ expr e ∧ args rest

end

def params (list : List Param) : Prop :=
  (∀ param ∈ list, IsName param.name) ∧ (list.map Param.name).Nodup

mutual

def statement : Statement → Prop
  | .define name params' body' _ => IsName name ∧ params params' ∧ body body'
  | .cond test yes no _ => expr test ∧ body yes ∧ alternative no
  | .repeatCount count body' _ => expr count ∧ body body'
  | .repeatRange name start stop step body' _ =>
    IsName name ∧ (∃ loc, start = .int 0 loc) ∧ expr stop ∧ step = none ∧ body body'
  | .loop test body' _ => expr test ∧ body body'
  | .assert test _ _ => expr test
  | .bind name value _ => IsName name ∧ expr value
  | .assign name value _ => IsName name ∧ expr value
  | .command name args' _ => IsName name ∧ args args'
  | .block body' => body body'
  | .empty => True

/-- No macro is declared twice in one list. -/
def body : Body Statement → Prop
  | ⟨list, _⟩ => statements list ∧ (macroNames list).Nodup

def alternative : Option (Body Statement) → Prop
  | none => True
  | some body' => body body'

def statements : List Statement → Prop
  | [] => True
  | first :: rest => statement first ∧ statements rest

end

end WellFormed

/-- The program can be written: its names and keys are read as such, its integers and magnitudes
have numerals, its selectors are not empty, its ranges start at zero and have no step, and neither
its lists of statements nor its parameters declare a name twice. -/
def Program.WellFormed (program : Program) : Prop :=
  WellFormed.statements program ∧ (macroNames program).Nodup

end BlockScript
