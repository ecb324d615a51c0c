import BlockScript.Proofs.Script.Printer
import BlockScript.Proofs.Script.Reading
import BlockScript.Proofs.Token.Relocation

/-!
# Places do not matter to reading

Places are copied from the text to the tokens, and from these to the program or to the error; nothing
is decided by them. So any change of the places of the tokens, even one that makes them all alike,
changes the places of the result in the same way and nothing else.
-/
namespace BlockScript
set_option autoImplicit false

/-! ## Programs with other places -/

namespace Relocated

variable (f : Location → Location)

mutual

def expr : Expr → Expr
  | .int value loc => .int value (f loc)
  | .text value loc => .text value (f loc)
  | .bool value loc => .bool value (f loc)
  | .ident name loc => .ident name (f loc)
  | .selector value loc => .selector value (f loc)
  | .world x y z loc => .world (expr x) (expr y) (expr z) (f loc)
  | .waypoint name loc => .waypoint name (f loc)
  | .query criteria' loc => .query (criteria criteria') (f loc)
  | .predicate name args' loc => .predicate name (args args') (f loc)
  | .unary op operand loc => .unary op (expr operand) (f loc)
  | .binary op left right => .binary op (expr left) (expr right)

def criteria : List (String × Expr) → List (String × Expr)
  | [] => []
  | (key, e) :: rest => (key, expr e) :: criteria rest

def args : List (Arg Expr) → List (Arg Expr)
  | [] => []
  | ⟨key, e⟩ :: rest => ⟨key, expr e⟩ :: args rest

end

mutual

def statement : Statement → Statement
  | .define name params body' loc => .define name params (body body') (f loc)
  | .cond test yes no loc => .cond (expr f test) (body yes) (alternative no) (f loc)
  | .repeatCount count body' loc => .repeatCount (expr f count) (body body') (f loc)
  | .repeatRange name start stop step body' loc =>
    .repeatRange name (expr f start) (expr f stop) (step.map (expr f)) (body body') (f loc)
  | .loop test body' loc => .loop (expr f test) (body body') (f loc)
  | .assert test message loc => .assert (expr f test) message (f loc)
  | .bind name value loc => .bind name (expr f value) (f loc)
  | .assign name value loc => .assign name (expr f value) (f loc)
  | .command name args' loc => .command name (args f args') (f loc)
  | .block body' => .block (body body')
  | .empty => .empty

def body : Body Statement → Body Statement
  | ⟨list, loc⟩ => ⟨statements list, f loc⟩

def alternative : Option (Body Statement) → Option (Body Statement)
  | none => none
  | some body' => some (body body')

def statements : List Statement → List Statement
  | [] => []
  | first :: rest => statement first :: statements rest

end

end Relocated

/-- The program with every place changed by `f`. -/
def Program.relocate (f : Location → Location) (program : Program) : Program :=
  Relocated.statements f program

namespace Relocated

variable {f : Location → Location}

theorem loc_expr : ∀ e : Expr, (expr f e).loc = f e.loc
  | .binary _ left _ => loc_expr left
  | .int .. => rfl
  | .text .. => rfl
  | .bool .. => rfl
  | .ident .. => rfl
  | .selector .. => rfl
  | .world .. => rfl
  | .waypoint .. => rfl
  | .query .. => rfl
  | .predicate .. => rfl
  | .unary .. => rfl

end Relocated

/-! ## Parsers go along -/

/-- From tokens with their places changed comes the value with its places changed, or the error. -/
def Moves {α β : Type} (f : Location → Location) (change : α → β) (p : Parser α) (q : Parser β) :
    Prop :=
  ∀ input, q (input.relocate f) =
    relocated f (fun (a, rest) => (change a, rest.relocate f)) (p input)

namespace Moves

variable {α β γ δ : Type} {f : Location → Location}

theorem pure (change : α → β) (a : α) : Moves f change (pure a) (pure (change a)) := fun _ => rfl

theorem bind {p : Parser α} {q : Parser β} {k : α → Parser γ} {k' : β → Parser δ}
    {change : α → β} {change' : γ → δ} (hp : Moves f change p q)
    (hk : ∀ a, Moves f change' (k a) (k' (change a))) : Moves f change' (p >>= k) (q >>= k') := by
  intro input
  cases h : p input with
  | error error =>
    have hq := hp input
    rw [h] at hq
    rw [Parser.bind_error h, Parser.bind_error hq]
    rfl
  | ok pair =>
    obtain ⟨a, rest⟩ := pair
    have hq := hp input
    rw [h] at hq
    rw [Parser.bind_ok h, Parser.bind_ok hq]
    exact hk a rest

theorem map {p q : Parser α} (g : α → β) (h : Moves f id p q) : Moves f id (g <$> p) (g <$> q) :=
  h.bind fun a => pure id (g a)

theorem ite {c : Prop} [Decidable c] {change : α → β} {p p' : Parser α} {q q' : Parser β}
    (hp : Moves f change p q) (hp' : Moves f change p' q') :
    Moves f change (if c then p else p') (if c then q else q') := by
  split
  · exact hp
  · exact hp'

theorem here : Moves f f Parser.here Parser.here := by
  rintro ⟨tokens, stop⟩
  cases tokens <;> rfl

theorem peek : Moves f id Parser.peek Parser.peek := by
  rintro ⟨tokens, stop⟩
  cases tokens <;> rfl

theorem peekSecond : Moves f id Parser.peekSecond Parser.peekSecond := by
  rintro ⟨tokens, stop⟩
  match tokens with
  | [] => rfl
  | [_] => rfl
  | _ :: _ :: _ => rfl

theorem remaining : Moves f id Parser.remaining Parser.remaining := by
  intro input
  change Except.ok ((input.tokens.map _).length, _) = _
  rw [List.length_map]
  rfl

theorem advance : Moves f id Parser.advance Parser.advance := by
  rintro ⟨tokens, stop⟩
  cases tokens <;> rfl

theorem failAt (change : α → β) (loc : Location) (fault : SyntaxFault) :
    Moves f change (Parser.failAt loc fault) (Parser.failAt (f loc) fault) := fun _ => rfl

theorem fail (change : α → β) (fault : SyntaxFault) :
    Moves f change (Parser.fail fault) (Parser.fail fault) :=
  .bind .here fun loc => .failAt change loc fault

theorem failExpected (change : α → β) (what : String) :
    Moves f change (Parser.failExpected what) (Parser.failExpected what) :=
  .bind .peek fun found => .fail change (.expected what found)

theorem eat (token : Token) : Moves f id (Parser.eat token) (Parser.eat token) :=
  .bind .peek fun _ => .ite (.bind .advance fun _ => .pure id true) (.pure id false)

theorem expect (symbol : Symbol) (what : String) :
    Moves f f (Parser.expect symbol what) (Parser.expect symbol what) :=
  .bind .here fun loc => .bind .peek fun _ =>
    .ite (.bind .advance fun _ => .pure f loc) (.failExpected f what)

theorem expectName (what : String) :
    Moves f id (Parser.expectName what) (Parser.expectName what) := by
  refine .bind .peek fun found => ?_
  dsimp only [id]
  split
  · exact .bind .advance fun _ => .pure id _
  · exact .fail id _
  · exact .fail id _

theorem expectText (what : String) :
    Moves f id (Parser.expectText what) (Parser.expectText what) := by
  refine .bind .peek fun found => ?_
  dsimp only [id]
  split
  · exact .bind .advance fun _ => .pure id _
  · exact .fail id _

end Moves

namespace Script

variable {f : Location → Location}

/-! ### Selectors -/

theorem terms_moves (n : Nat) : Moves f id (terms n) (terms n) := by
  induction n with
  | zero => exact .failExpected id _
  | succ n ih =>
    refine .bind .peek fun found => ?_
    dsimp only [id]
    split
    · refine .bind .advance fun _ => .bind .peek fun next => .bind .peekSecond fun second => ?_
      dsimp only [id]
      split
      · exact .bind .advance fun _ => .bind ih fun more => .pure id _
      · exact .pure id _
    · exact .fail id _

theorem shorthand_moves : Moves f id shorthand shorthand :=
  .bind (.eat _) fun _ => .ite (.pure id _) <|
    .bind (.eat _) fun _ => .ite (.pure id _) (.pure id _)

theorem selector_moves : Moves f id selector selector :=
  .bind .remaining fun n => .bind (terms_moves n) fun _ => .bind shorthand_moves fun _ => .pure id _

/-! ### Expressions -/

/-- Expressions are read with their places changed. -/
abbrev MovesExpr (f : Location → Location) (p : Parser Expr) : Prop :=
  Moves f (Relocated.expr f) p p

theorem chainFrom_moves {operand : Parser Expr} (h : MovesExpr f operand)
    (op? : Token → Option BinaryOp) (n : Nat) (left : Expr) :
    Moves f (Relocated.expr f) (chainFrom operand op? n left)
      (chainFrom operand op? n (Relocated.expr f left)) := by
  induction n generalizing left with
  | zero => exact .pure _ left
  | succ n ih =>
    refine .bind .peek fun found => ?_
    dsimp only [id]
    split
    · exact .pure _ left
    · exact .bind .advance fun _ => .bind h fun right => ih _

theorem chain_moves {operand : Parser Expr} (h : MovesExpr f operand)
    (op? : Token → Option BinaryOp) : MovesExpr f (chain operand op?) :=
  .bind h fun left => .bind .remaining fun n => chainFrom_moves h op? n left

theorem comparison_moves {operand : Parser Expr} (h : MovesExpr f operand) :
    MovesExpr f (comparison operand) := by
  refine .bind h fun left => .bind .peek fun found => ?_
  dsimp only [id]
  split
  · exact .pure _ left
  · refine .bind .advance fun _ => .bind h fun right => .bind .peek fun next => ?_
    dsimp only [id]
    split
    · exact .fail _ _
    · exact .pure _ (Expr.binary _ left right)

theorem unaryOps_moves : Moves f (List.map (Prod.map id f)) unaryOps unaryOps := by
  rintro ⟨tokens, stop⟩
  have hop : (fun item : Located => (unaryOp? item.token).isSome) ∘ Located.relocate f =
      fun item => (unaryOp? item.token).isSome := rfl
  have hlocated : located unaryOp? ∘ Located.relocate f =
      fun item => (located unaryOp? item).map (Prod.map id f) := by
    funext item
    rw [Function.comp_apply, located, located, Option.map_map]
    rfl
  change Except.ok (((tokens.map (Located.relocate f)).takeWhile _).filterMap _,
    (⟨(tokens.map (Located.relocate f)).dropWhile _, f stop⟩ : TokenList)) = _
  rw [List.takeWhile_map, List.dropWhile_map, List.filterMap_map, hop, hlocated,
    ← List.map_filterMap]
  rfl

theorem unary_moves {primary : Parser Expr} (h : MovesExpr f primary) :
    MovesExpr f (unary primary) := by
  refine .bind unaryOps_moves fun ops => .bind h fun operand => ?_
  have hfold : (ops.map (Prod.map id f)).foldr (fun op inner => .unary op.1 inner op.2)
      (Relocated.expr f operand) =
      Relocated.expr f (ops.foldr (fun op inner => .unary op.1 inner op.2) operand) := by
    induction ops with
    | nil => rfl
    | cons op ops ih =>
      rw [List.map_cons, List.foldr_cons, ih]
      rfl
  have hpure := Moves.pure (f := f) (Relocated.expr f)
    (ops.foldr (fun op inner => .unary op.1 inner op.2) operand)
  rwa [← hfold] at hpure

theorem key_moves : Moves f id key key := by
  refine .bind .peek fun first => .bind .peekSecond fun second => ?_
  dsimp only [id]
  split
  · exact .bind .advance fun _ => .bind .advance fun _ => .pure id _
  · exact .bind .advance fun _ => .bind .advance fun _ => .pure id _
  · exact .pure id _

theorem argsFrom_moves {expr : Parser Expr} (h : MovesExpr f expr) (n : Nat) :
    Moves f (Relocated.args f) (argsFrom expr n) (argsFrom expr n) := by
  induction n with
  | zero => exact .failExpected _ _
  | succ n ih =>
    refine .bind key_moves fun key => .bind h fun value => .bind (.eat _) fun comma => ?_
    refine .ite (.bind ih fun more => .pure _ _) (.bind (.expect _ _) fun _ =>
      .pure _ [(⟨key, value⟩ : Arg Expr)])

theorem args_moves {expr : Parser Expr} (h : MovesExpr f expr) :
    Moves f (Relocated.args f) (args expr) (args expr) :=
  .bind (.eat _) fun _ => .ite (.pure _ []) (.bind .remaining fun n => argsFrom_moves h n)

theorem criteria_moves (list : List (Arg Expr)) :
    Moves f (Relocated.criteria f) (criteria list) (criteria (Relocated.args f list)) := by
  induction list with
  | nil => exact .pure _ []
  | cons arg rest ih =>
    obtain ⟨key, value⟩ := arg
    cases key with
    | some key => exact .bind ih fun made => .pure _ ((key, value) :: made)
    | none =>
      rw [Relocated.args, criteria, criteria, Relocated.loc_expr]
      exact .failAt _ value.loc _

theorem worldForm_moves {expr : Parser Expr} (h : MovesExpr f expr) (loc : Location) :
    Moves f (Relocated.expr f) (worldForm expr loc) (worldForm expr (f loc)) :=
  .bind h fun x => .bind (.expect _ _) fun _ => .bind h fun y => .bind (.expect _ _) fun _ =>
    .bind h fun z => .bind (.expect _ _) fun _ => .pure _ (Expr.world x y z loc)

theorem waypointForm_moves (loc : Location) :
    Moves f (Relocated.expr f) (waypointForm loc) (waypointForm (f loc)) :=
  .bind (.expectText _) fun name => .bind (.expect _ _) fun _ => .pure _ (Expr.waypoint name loc)

theorem nameForm_moves {expr : Parser Expr} (h : MovesExpr f expr) (name : String)
    (loc : Location) :
    Moves f (Relocated.expr f) (nameForm expr name loc) (nameForm expr name (f loc)) := by
  refine .bind (.eat _) fun call => .ite ?_ (.pure _ (Expr.ident name loc))
  refine .ite (worldForm_moves h loc) (.ite (waypointForm_moves loc) (.ite ?_ ?_))
  · exact .bind (args_moves h) fun list => .bind (criteria_moves list) fun made =>
      .pure _ (Expr.query made loc)
  · exact .bind (args_moves h) fun list => .pure _ (Expr.predicate name list loc)

theorem primary_moves {expr : Parser Expr} (h : MovesExpr f expr) : MovesExpr f (primary expr) := by
  refine .bind .here fun loc => .bind .peek fun found => ?_
  dsimp only [id]
  cases found with
  | none => exact .fail _ _
  | some token =>
    cases token with
    | int value => exact .bind .advance fun _ => .pure _ (Expr.int value loc)
    | text value => exact .bind .advance fun _ => .pure _ (Expr.text value loc)
    | name name => exact .bind .advance fun _ => nameForm_moves h name loc
    | axis => exact .bind selector_moves fun value => .pure _ (Expr.selector value loc)
    | keyword word =>
      cases word with
      | trueWord => exact .bind .advance fun _ => .pure _ (Expr.bool true loc)
      | falseWord => exact .bind .advance fun _ => .pure _ (Expr.bool false loc)
      | _ => exact .fail _ _
    | symbol sign =>
      cases sign with
      | leftParen =>
        exact .bind .advance fun _ => .bind h fun inner => .bind (.expect _ _) fun _ =>
          .pure _ inner
      | _ => exact .fail _ _

theorem levels_moves {primary : Parser Expr} (h : MovesExpr f primary) :
    MovesExpr f (levels primary) := by
  have hproduct := chain_moves (unary_moves h) multiplicativeOp?
  have hsum := chain_moves hproduct additiveOp?
  exact chain_moves (chain_moves (comparison_moves hsum) conjunctionOp?) disjunctionOp?

theorem exprWithin_moves (n : Nat) : MovesExpr f (exprWithin n) := by
  induction n with
  | zero => exact .failExpected _ _
  | succ n ih => exact levels_moves (primary_moves ih)

theorem expr_moves : MovesExpr f expr := .bind .remaining fun n => exprWithin_moves n

/-! ### Statements -/

theorem paramsFrom_moves (n : Nat) (before : List Param) :
    Moves f id (paramsFrom n before) (paramsFrom n before) := by
  induction n generalizing before with
  | zero => exact .failExpected _ _
  | succ n ih =>
    refine .bind .here fun typeLoc => .bind (.expectName _) fun typeName => ?_
    dsimp only [id]
    split
    · exact .failAt _ typeLoc _
    · refine .bind .here fun loc => .bind (.expectName _) fun name => ?_
      exact .ite (.failAt _ loc _) (.bind (.eat _) fun comma => .ite (ih _) (.pure _ _))

theorem params_moves : Moves f id params params :=
  .bind .peek fun _ => .ite (.pure _ []) (.bind .remaining fun n => paramsFrom_moves n [])

theorem assertion_moves (loc : Location) :
    Moves f (Relocated.statement f) (assertion loc) (assertion (f loc)) := by
  refine .bind (.expect _ _) fun _ => .bind expr_moves fun test => .bind (.eat _) fun comma => ?_
  refine .ite (.bind (.map some (.expectText _)) fun message => ?_)
    (.bind (.pure id none) fun message => ?_)
  all_goals
    exact .bind (.expect _ _) fun _ => .bind (.expect _ _) fun _ =>
      .pure (Relocated.statement f) (Statement.assert test message loc)

theorem binding_moves (loc : Location) :
    Moves f (Relocated.statement f) (binding loc) (binding (f loc)) :=
  .bind (.expectName _) fun name => .bind (.expect _ _) fun _ => .bind expr_moves fun value =>
    .bind (.expect _ _) fun _ => .pure _ (Statement.bind name value loc)

theorem named_moves (name : String) (loc : Location) :
    Moves f (Relocated.statement f) (named name loc) (named name (f loc)) := by
  refine .bind (.eat _) fun assigned => .ite ?_ (.bind (.eat _) fun called => .ite ?_ ?_)
  · exact .bind expr_moves fun value => .bind (.expect _ _) fun _ =>
      .pure _ (Statement.assign name value loc)
  · exact .bind (args_moves expr_moves) fun list => .bind (.expect _ _) fun _ =>
      .pure _ (Statement.command name list loc)
  · exact .bind .peek fun found => .fail _ _

section Statements

variable {inner : Parser (List Statement)} (h : Moves f (Relocated.statements f) inner inner)

include h

theorem body_moves : Moves f (Relocated.body f) (body inner) (body inner) := by
  refine .bind (.expect _ _) fun loc => .bind h fun list => .bind .peek fun found => ?_
  dsimp only [id]
  split
  · exact .failAt _ loc _
  · exact .bind (.expect _ _) fun _ => .pure _ (⟨list, loc⟩ : Body Statement)

theorem define_moves (loc : Location) :
    Moves f (Relocated.statement f) (define inner loc) (define inner (f loc)) :=
  .bind (.expectName _) fun name => .bind (.expect _ _) fun _ => .bind params_moves fun list =>
    .bind (.expect _ _) fun _ => .bind (body_moves h) fun made =>
      .pure _ (Statement.define name list made loc)

theorem cond_moves (loc : Location) (n : Nat) :
    Moves f (Relocated.statement f) (cond inner loc n) (cond inner (f loc) n) := by
  induction n generalizing loc with
  | zero => exact .failExpected _ _
  | succ n ih =>
    refine .bind (.expect _ _) fun _ => .bind expr_moves fun test => .bind (.expect _ _) fun _ =>
      .bind (body_moves h) fun yes => .bind (.eat _) fun other => .ite ?_ ?_
    · refine .bind .here fun nested => .bind (.eat _) fun chained => .ite ?_ ?_
      · exact .bind (ih nested) fun made =>
          .pure _ (Statement.cond test yes (some ⟨[made], nested⟩) loc)
      · exact .bind (body_moves h) fun no => .pure _ (Statement.cond test yes (some no) loc)
    · exact .pure _ (Statement.cond test yes none loc)

theorem repetition_moves (loc : Location) :
    Moves f (Relocated.statement f) (repetition inner loc) (repetition inner (f loc)) := by
  refine .bind (.expect _ _) fun _ => .bind .here fun start => .bind .peek fun first =>
    .bind .peekSecond fun second => ?_
  dsimp only [id]
  split
  · exact .bind .advance fun _ => .bind .advance fun _ => .bind expr_moves fun stop =>
      .bind (.expect _ _) fun _ => .bind (body_moves h) fun made =>
        .pure _ (Statement.repeatRange _ (.int 0 start) stop none made loc)
  · exact .fail _ _
  · exact .bind expr_moves fun count => .bind (.expect _ _) fun _ => .bind (body_moves h) fun made =>
      .pure _ (Statement.repeatCount count made loc)

theorem loop_moves (loc : Location) :
    Moves f (Relocated.statement f) (loop inner loc) (loop inner (f loc)) :=
  .bind (.expect _ _) fun _ => .bind expr_moves fun test => .bind (.expect _ _) fun _ =>
    .bind (body_moves h) fun made => .pure _ (Statement.loop test made loc)

theorem statement_moves :
    Moves f (Relocated.statement f) (statement inner) (statement inner) := by
  refine .bind .here fun loc => .bind .peek fun found => ?_
  dsimp only [id]
  split
  · exact .bind .advance fun _ => .pure _ Statement.empty
  · exact .bind (body_moves h) fun made => .pure _ (Statement.block made)
  · exact .bind .advance fun _ => define_moves h loc
  · exact .bind .advance fun _ => .bind .remaining fun n => cond_moves h loc n
  · exact .bind .advance fun _ => repetition_moves h loc
  · exact .bind .advance fun _ => loop_moves h loc
  · exact .bind .advance fun _ => assertion_moves loc
  · exact .bind .advance fun _ => binding_moves loc
  · exact .bind .advance fun _ => named_moves _ loc
  · exact .fail _ _
  · exact .fail _ _

end Statements

theorem declare_moves (made : Statement) (seen : List String) :
    Moves f id (declare made seen) (declare (Relocated.statement f made) seen) := by
  cases made with
  | define name params body loc => exact .ite (.failAt _ loc _) (.pure _ _)
  | _ => exact .pure _ seen

theorem statements_moves (n : Nat) (seen : List String) :
    Moves f (Relocated.statements f) (statements n seen) (statements n seen) := by
  induction n generalizing seen with
  | zero => exact .pure _ []
  | succ n ih =>
    refine .bind .peek fun found => ?_
    dsimp only [id]
    split
    · exact .pure _ []
    · exact .pure _ []
    · exact .bind (statement_moves (ih [])) fun first => .bind (declare_moves first seen) fun seen =>
        .bind (ih seen) fun rest => .pure _ (first :: rest)

theorem program_moves : Moves f (Program.relocate f) program program := by
  refine .bind .remaining fun n => .bind (statements_moves n []) fun all => ?_
  refine .bind .peek fun found => ?_
  dsimp only [id]
  split
  · exact .pure _ all
  · exact .fail _ _

end Script

/-! ## Whole texts -/

/-- What is read from a text with its places changed is what the tokens with their places changed
are read as. -/
theorem relocated_parse (f : Location → Location) (source : String) :
    relocated f (Program.relocate f) (parse source) = (do
      let list ← relocated f (TokenList.relocate f) (tokenize source)
      let (program, _) ← Script.program list
      return program) := by
  unfold parse Parser.runOn
  cases tokenize source with
  | error error => rfl
  | ok list =>
    have hprogram := Script.program_moves (f := f) list
    change relocated f (Program.relocate f) (Script.program list >>= fun pair => pure pair.1) =
      Script.program (list.relocate f) >>= fun pair => pure pair.1
    rw [hprogram]
    cases Script.program list <;> rfl

/-! ## Forgetting places -/

namespace Relocated

mutual

theorem expr_default : ∀ e : Expr, expr (fun _ => default) e = Unplaced.expr e
  | .int .. => rfl
  | .text .. => rfl
  | .bool .. => rfl
  | .ident .. => rfl
  | .selector .. => rfl
  | .world x y z _ => by rw [expr, Unplaced.expr, expr_default x, expr_default y, expr_default z]
  | .waypoint .. => rfl
  | .query list _ => by rw [expr, Unplaced.expr, criteria_default list]
  | .predicate _ list _ => by rw [expr, Unplaced.expr, args_default list]
  | .unary _ operand _ => by rw [expr, Unplaced.expr, expr_default operand]
  | .binary _ left right => by rw [expr, Unplaced.expr, expr_default left, expr_default right]

theorem criteria_default :
    ∀ list : List (String × Expr), criteria (fun _ => default) list = Unplaced.criteria list
  | [] => rfl
  | (key, e) :: rest => by
    rw [criteria, Unplaced.criteria, expr_default e, criteria_default rest]

theorem args_default :
    ∀ list : List (Arg Expr), args (fun _ => default) list = Unplaced.args list
  | [] => rfl
  | ⟨key, e⟩ :: rest => by rw [args, Unplaced.args, expr_default e, args_default rest]

end

mutual

theorem statement_default :
    ∀ made : Statement, statement (fun _ => default) made = Unplaced.statement made
  | .define _ _ made _ => by rw [statement, Unplaced.statement, body_default made]
  | .cond test yes no _ => by
    rw [statement, Unplaced.statement, expr_default test, body_default yes, alternative_default no]
  | .repeatCount count made _ => by
    rw [statement, Unplaced.statement, expr_default count, body_default made]
  | .repeatRange _ start stop step made _ => by
    rw [statement, Unplaced.statement, expr_default start, expr_default stop, body_default made,
      funext expr_default]
  | .loop test made _ => by
    rw [statement, Unplaced.statement, expr_default test, body_default made]
  | .assert test _ _ => by rw [statement, Unplaced.statement, expr_default test]
  | .bind _ value _ => by rw [statement, Unplaced.statement, expr_default value]
  | .assign _ value _ => by rw [statement, Unplaced.statement, expr_default value]
  | .command _ list _ => by rw [statement, Unplaced.statement, args_default list]
  | .block made => by rw [statement, Unplaced.statement, body_default made]
  | .empty => rfl

theorem body_default :
    ∀ made : Body Statement, body (fun _ => default) made = Unplaced.body made
  | ⟨list, _⟩ => by rw [body, Unplaced.body, statements_default list]

theorem alternative_default :
    ∀ made : Option (Body Statement),
      alternative (fun _ => default) made = Unplaced.alternative made
  | none => rfl
  | some made => by rw [alternative, Unplaced.alternative, body_default made]

theorem statements_default :
    ∀ list : List Statement, statements (fun _ => default) list = Unplaced.statements list
  | [] => rfl
  | first :: rest => by
    rw [statements, Unplaced.statements, statement_default first, statements_default rest]

end

end Relocated

/-- To forget the places of a program is to make them all alike. -/
theorem Program.relocate_default (program : Program) :
    program.relocate (fun _ => default) = program.unplaced :=
  Relocated.statements_default program

end BlockScript
