import BlockScript.Script.Basic

/-!
# The grammar of programs

Which lists of tokens spell which programs, with the places of all their parts. The rules say
nothing about how a text is read. One of them looks at its neighbours: a plus between two axis
tokens joins terms of one selector and never adds two expressions.
-/
namespace BlockScript
set_option autoImplicit false

namespace Grammar

/-! ## Operators -/

/-- How tightly an expression binds, from the loosest to the tightest. -/
inductive Level where
  | disjunction
  | conjunction
  | comparison
  | sum
  | product
  | unary
  | primary
deriving DecidableEq

def Level.tighter : Level → Level
  | disjunction => conjunction
  | conjunction => comparison
  | comparison => sum
  | sum => product
  | product => unary
  | unary => primary
  | primary => primary

def sign : BinaryOp → Symbol
  | .or => .either
  | .and => .both
  | .eq => .equal
  | .ne => .notEqual
  | .lt => .less
  | .le => .lessEqual
  | .gt => .greater
  | .ge => .greaterEqual
  | .add => .plus
  | .sub => .minus
  | .mul => .star
  | .div => .slash

def unarySign : UnaryOp → Symbol
  | .not => .bang
  | .neg => .minus

def levelOf : BinaryOp → Level
  | .or => .disjunction
  | .and => .conjunction
  | .add => .sum
  | .sub => .sum
  | .mul => .product
  | .div => .product
  | _ => .comparison

/-- Operators group from the left; only comparisons do not group at all. -/
def leftLevel (op : BinaryOp) : Level :=
  if levelOf op = .comparison then .sum else levelOf op

/-- A symbol at a place. -/
abbrev mark (symbol : Symbol) (loc : Location) : Located := ⟨.symbol symbol, loc⟩

/-- A keyword at a place. -/
abbrev word (keyword : Keyword) (loc : Location) : Located := ⟨.keyword keyword, loc⟩

/-! ## Selectors -/

/-- Axis tokens joined by plus signs. -/
inductive Terms : List Located → List Term → Prop where
  | one (axis : Axis) (magnitude : Option Int32) (spelling : String) (loc : Location) :
    Terms [⟨.axis axis magnitude spelling, loc⟩] [⟨axis, magnitude.getD 1⟩]
  | more (axis : Axis) (magnitude : Option Int32) (spelling : String) (loc plus : Location)
    {ts : List Located} {terms : List Term} (h : Terms ts terms) :
    Terms (⟨.axis axis magnitude spelling, loc⟩ :: mark .plus plus :: ts)
      (⟨axis, magnitude.getD 1⟩ :: terms)

/-- A chain of terms, with at most one sign for one block up or down at its end. -/
inductive Chain : List Located → Selector → Prop where
  | plain {ts : List Located} {terms : List Term} (h : Terms ts terms) : Chain ts ⟨terms⟩
  | up {ts : List Located} {terms : List Term} (h : Terms ts terms) (loc : Location) :
    Chain (ts ++ [mark .caret loc]) ⟨terms ++ [⟨.up, 1⟩]⟩
  | down {ts : List Located} {terms : List Term} (h : Terms ts terms) (loc : Location) :
    Chain (ts ++ [mark .underscore loc]) ⟨terms ++ [⟨.down, 1⟩]⟩

def isAxis : Token → Bool
  | .axis .. => true
  | _ => false

def startsWithAxis (ts : List Located) : Bool := ts.head?.any fun t => isAxis t.token

def endsInAxis (ts : List Located) : Bool := ts.getLast?.any fun t => isAxis t.token

/-- A plus that belongs to a selector. -/
def Joined (left : List Located) (symbol : Symbol) (right : List Located) : Prop :=
  endsInAxis left = true ∧ symbol = .plus ∧ startsWithAxis right = true

/-! ## Expressions -/

/-- The key of an argument with its colon, if it has one; an axis token may be a key. -/
inductive Key : List Located → Option String → Prop where
  | positional : Key [] none
  | name (spelling : String) (loc colon : Location) :
    Key [⟨.name spelling, loc⟩, mark .colon colon] (some spelling)
  | axis (axis : Axis) (magnitude : Option Int32) (spelling : String) (loc colon : Location) :
    Key [⟨.axis axis magnitude spelling, loc⟩, mark .colon colon] (some spelling)

/-- The names of calls that are no predicates. -/
def formNames : List String := ["world", "waypoint", "block"]

/-- What tokens may spell inside a statement. -/
inductive Form where
  | expr (level : Level) (e : Expr)
  | args (list : List (Arg Expr))

inductive Spells : List Located → Form → Prop where
  | lift {level : Level} {ts : List Located} {e : Expr} (hlevel : level ≠ .primary)
    (h : Spells ts (.expr level.tighter e)) : Spells ts (.expr level e)
  | binary {left right : List Located} {l r : Expr} (op : BinaryOp) (loc : Location)
    (hleft : Spells left (.expr (leftLevel op) l))
    (hright : Spells right (.expr (levelOf op).tighter r))
    (hapart : ¬ Joined left (sign op) right) :
    Spells (left ++ mark (sign op) loc :: right) (.expr (levelOf op) (.binary op l r))
  | unary {ts : List Located} {e : Expr} (op : UnaryOp) (loc : Location)
    (h : Spells ts (.expr .unary e)) :
    Spells (mark (unarySign op) loc :: ts) (.expr .unary (.unary op e loc))
  | int (value : Int64) (loc : Location) :
    Spells [⟨.int value, loc⟩] (.expr .primary (.int value loc))
  | text (value : String) (loc : Location) :
    Spells [⟨.text value, loc⟩] (.expr .primary (.text value loc))
  | trueWord (loc : Location) : Spells [word .trueWord loc] (.expr .primary (.bool true loc))
  | falseWord (loc : Location) : Spells [word .falseWord loc] (.expr .primary (.bool false loc))
  | parens {ts : List Located} {e : Expr} (lp rp : Location)
    (h : Spells ts (.expr .disjunction e)) :
    Spells (mark .leftParen lp :: (ts ++ [mark .rightParen rp])) (.expr .primary e)
  | selector {first : Located} {ts : List Located} {value : Selector}
    (h : Chain (first :: ts) value) :
    Spells (first :: ts) (.expr .primary (.selector value first.loc))
  | ident (name : String) (loc : Location) :
    Spells [⟨.name name, loc⟩] (.expr .primary (.ident name loc))
  | world {xs ys zs : List Located} {x y z : Expr} (loc lp first second rp : Location)
    (hx : Spells xs (.expr .disjunction x)) (hy : Spells ys (.expr .disjunction y))
    (hz : Spells zs (.expr .disjunction z)) :
    Spells (⟨.name "world", loc⟩ :: mark .leftParen lp :: (xs ++ mark .comma first ::
      (ys ++ mark .comma second :: (zs ++ [mark .rightParen rp]))))
      (.expr .primary (.world x y z loc))
  | waypoint (name : String) (loc lp place rp : Location) :
    Spells [⟨.name "waypoint", loc⟩, mark .leftParen lp, ⟨.text name, place⟩, mark .rightParen rp]
      (.expr .primary (.waypoint name loc))
  | query {ts : List Located} {criteria : List (String × Expr)} (loc lp rp : Location)
    (h : Spells ts (.args (criteria.map fun (key, e) => ⟨some key, e⟩))) :
    Spells (⟨.name "block", loc⟩ :: mark .leftParen lp :: (ts ++ [mark .rightParen rp]))
      (.expr .primary (.query criteria loc))
  | predicate {ts : List Located} {list : List (Arg Expr)} (name : String) (loc lp rp : Location)
    (hname : name ∉ formNames) (h : Spells ts (.args list)) :
    Spells (⟨.name name, loc⟩ :: mark .leftParen lp :: (ts ++ [mark .rightParen rp]))
      (.expr .primary (.predicate name list loc))
  | noArgs : Spells [] (.args [])
  | lastArg {ks ts : List Located} {key : Option String} {e : Expr} (hkey : Key ks key)
    (h : Spells ts (.expr .disjunction e)) : Spells (ks ++ ts) (.args [⟨key, e⟩])
  | moreArgs {ks ts rest : List Located} {key : Option String} {e : Expr} {list : List (Arg Expr)}
    (comma : Location) (hkey : Key ks key) (h : Spells ts (.expr .disjunction e))
    (hlist : list ≠ []) (hrest : Spells rest (.args list)) :
    Spells (ks ++ ts ++ mark .comma comma :: rest) (.args (⟨key, e⟩ :: list))

/-! ## Statements -/

/-- The parameters of a macro, each with the name of its type. -/
inductive Params : List Located → List Param → Prop where
  | none : Params [] []
  | last (type : ParamType) (name : String) (typeLoc loc : Location) :
    Params [⟨.name type.name, typeLoc⟩, ⟨.name name, loc⟩] [⟨name, type⟩]
  | more {ts : List Located} {params : List Param} (type : ParamType) (name : String)
    (typeLoc loc comma : Location) (hparams : params ≠ []) (h : Params ts params) :
    Params (⟨.name type.name, typeLoc⟩ :: ⟨.name name, loc⟩ :: mark .comma comma :: ts)
      (⟨name, type⟩ :: params)

/-- The names of the macros that a list of statements declares. -/
def macroNames (statements : List Statement) : List String :=
  (statements.filterMap Statement.macro?).map Macro.name

/-- What tokens may spell outside expressions. -/
inductive Shape where
  | statement (statement : Statement)
  | body (body : Body Statement)
  | list (statements : List Statement)

inductive Writes : List Located → Shape → Prop where
  | empty (loc : Location) : Writes [mark .semicolon loc] (.statement .empty)
  | block {ts : List Located} {body : Body Statement} (h : Writes ts (.body body)) :
    Writes ts (.statement (.block body))
  | define {ps ts : List Located} {params : List Param} {body : Body Statement} (name : String)
    (loc place lp rp : Location) (hparams : Params ps params)
    (hnames : (params.map Param.name).Nodup) (h : Writes ts (.body body)) :
    Writes (word .macroWord loc :: ⟨.name name, place⟩ :: mark .leftParen lp ::
      (ps ++ mark .rightParen rp :: ts)) (.statement (.define name params body loc))
  | cond {es ts : List Located} {e : Expr} {yes : Body Statement} (loc lp rp : Location)
    (he : Spells es (.expr .disjunction e)) (h : Writes ts (.body yes)) :
    Writes (word .ifWord loc :: mark .leftParen lp :: (es ++ mark .rightParen rp :: ts))
      (.statement (.cond e yes none loc))
  | condElse {es ts us : List Located} {e : Expr} {yes no : Body Statement}
    (loc lp rp place : Location) (he : Spells es (.expr .disjunction e))
    (h : Writes ts (.body yes)) (hno : Writes us (.body no)) :
    Writes (word .ifWord loc :: mark .leftParen lp :: (es ++ mark .rightParen rp ::
      (ts ++ word .elseWord place :: us))) (.statement (.cond e yes (some no) loc))
  | condElseIf {es ts us : List Located} {e : Expr} {yes : Body Statement} {next : Statement}
    (loc lp rp place nested : Location) (he : Spells es (.expr .disjunction e))
    (h : Writes ts (.body yes)) (hnext : Writes (word .ifWord nested :: us) (.statement next)) :
    Writes (word .ifWord loc :: mark .leftParen lp :: (es ++ mark .rightParen rp ::
      (ts ++ word .elseWord place :: word .ifWord nested :: us)))
      (.statement (.cond e yes (some ⟨[next], nested⟩) loc))
  | repeatCount {es ts : List Located} {e : Expr} {body : Body Statement} (loc lp rp : Location)
    (he : Spells es (.expr .disjunction e)) (h : Writes ts (.body body)) :
    Writes (word .repeatWord loc :: mark .leftParen lp :: (es ++ mark .rightParen rp :: ts))
      (.statement (.repeatCount e body loc))
  | repeatRange {es ts : List Located} {e : Expr} {body : Body Statement} (name : String)
    (loc lp place colon rp : Location) (he : Spells es (.expr .disjunction e))
    (h : Writes ts (.body body)) :
    Writes (word .repeatWord loc :: mark .leftParen lp :: ⟨.name name, place⟩ ::
      mark .colon colon :: (es ++ mark .rightParen rp :: ts))
      (.statement (.repeatRange name (.int 0 place) e none body loc))
  | loop {es ts : List Located} {e : Expr} {body : Body Statement} (loc lp rp : Location)
    (he : Spells es (.expr .disjunction e)) (h : Writes ts (.body body)) :
    Writes (word .whileWord loc :: mark .leftParen lp :: (es ++ mark .rightParen rp :: ts))
      (.statement (.loop e body loc))
  | assert {es : List Located} {e : Expr} (loc lp rp semicolon : Location)
    (he : Spells es (.expr .disjunction e)) :
    Writes (word .assertWord loc :: mark .leftParen lp ::
      (es ++ [mark .rightParen rp, mark .semicolon semicolon])) (.statement (.assert e none loc))
  | assertMessage {es : List Located} {e : Expr} (message : String)
    (loc lp comma place rp semicolon : Location) (he : Spells es (.expr .disjunction e)) :
    Writes (word .assertWord loc :: mark .leftParen lp ::
      (es ++ [mark .comma comma, ⟨.text message, place⟩, mark .rightParen rp,
        mark .semicolon semicolon])) (.statement (.assert e (some message) loc))
  | bind {es : List Located} {e : Expr} (name : String) (loc place assign semicolon : Location)
    (he : Spells es (.expr .disjunction e)) :
    Writes (word .letWord loc :: ⟨.name name, place⟩ :: mark .assign assign ::
      (es ++ [mark .semicolon semicolon])) (.statement (.bind name e loc))
  | assign {es : List Located} {e : Expr} (name : String) (loc assign semicolon : Location)
    (he : Spells es (.expr .disjunction e)) :
    Writes (⟨.name name, loc⟩ :: mark .assign assign :: (es ++ [mark .semicolon semicolon]))
      (.statement (.assign name e loc))
  | command {as : List Located} {args : List (Arg Expr)} (name : String)
    (loc lp rp semicolon : Location) (hargs : Spells as (.args args)) :
    Writes (⟨.name name, loc⟩ :: mark .leftParen lp ::
      (as ++ [mark .rightParen rp, mark .semicolon semicolon]))
      (.statement (.command name args loc))
  | body {ts : List Located} {statements : List Statement} (loc close : Location)
    (h : Writes ts (.list statements)) (hnames : (macroNames statements).Nodup) :
    Writes (mark .leftBrace loc :: (ts ++ [mark .rightBrace close])) (.body ⟨statements, loc⟩)
  | nil : Writes [] (.list [])
  | cons {ts us : List Located} {first : Statement} {rest : List Statement}
    (h : Writes ts (.statement first)) (hrest : Writes us (.list rest)) :
    Writes (ts ++ us) (.list (first :: rest))

/-- The tokens spell the program. -/
def Derives (tokens : List Located) (program : Program) : Prop :=
  Writes tokens (.list program) ∧ (macroNames program).Nodup

end Grammar

end BlockScript
