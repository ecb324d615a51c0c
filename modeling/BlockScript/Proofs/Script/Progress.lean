import BlockScript.Proofs.Script.ExprSoundness
import BlockScript.Proofs.Script.Turns

/-!
# Every parser goes on

A statement, a body, an expression of any level, the arguments of a call and a selector are only
read behind a token, and whatever calls itself on the way has taken a token before it does. For each
of the recursions there is one turn: the parser with the next turn left open.
-/
namespace BlockScript
set_option autoImplicit false

namespace Script

open BlockScript.Parser BlockScript.Grammar

/-! ## One turn -/

namespace Turn

/-- One term, and the rest of the chain if it is joined on. -/
def terms (again : Parser (List Term)) : Parser (List Term) := do
  match ← peek with
  | some (.axis axis magnitude _) =>
    advance
    let term : Term := ⟨axis, magnitude.getD 1⟩
    match ← peek, ← peekSecond with
    | some (.symbol .plus), some (.axis ..) =>
      advance
      return term :: (← again)
    | _, _ => return [term]
  | found => fail (.expected "selector term" found)

/-- One more operand for a chain, if there is an operator. -/
def chain (operand : Parser Expr) (op? : Token → Option BinaryOp) (again : Expr → Parser Expr)
    (left : Expr) : Parser Expr := do
  match (← peek).bind op? with
  | none => return left
  | some op =>
    advance
    let right ← operand
    again (.binary op left right)

/-- One unary operator, and more of them before the operand. -/
def unary (primary again : Parser Expr) : Parser Expr := do
  let loc ← here
  match (← peek).bind unaryOp? with
  | none => primary
  | some op =>
    advance
    return .unary op (← again) loc

/-- An expression in which `again` reads what stands in parentheses. -/
def expr (again : Parser Expr) : Parser Expr := levels (primary again)

/-- One argument, and the next ones behind a comma. -/
def args (expr : Parser Expr) (again : Parser (List (Arg Expr))) : Parser (List (Arg Expr)) := do
  let key ← key
  let value ← expr
  if ← eat (.symbol .comma) then
    return ⟨key, value⟩ :: (← again)
  else
    let _ ← expect .rightParen "')' or ','"
    return [⟨key, value⟩]

/-- One parameter, and the next ones behind a comma. -/
def params (again : List Param → Parser (List Param)) (before : List Param) :
    Parser (List Param) := do
  let typeLoc ← here
  let typeName ← expectName "a parameter type"
  match ParamType.ofName? typeName with
  | none => failAt typeLoc (.unknownParameterType typeName)
  | some type =>
    let loc ← here
    let name ← expectName "a parameter name"
    if before.any (fun param => param.name = name) then
      failAt loc (.duplicateParameter name)
    else
      let params := before ++ [⟨name, type⟩]
      if ← eat (.symbol .comma) then again params
      else return params

/-- One condition, and the next one of the chain behind an `else` and an `if`. -/
def cond (inner : Parser (List Statement)) (again : Location → Parser Statement)
    (loc : Location) : Parser Statement := do
  let _ ← expect .leftParen "'(' after if"
  let test ← Script.expr
  let _ ← expect .rightParen "')'"
  let yes ← body inner
  if ← eat (.keyword .elseWord) then
    let nested ← here
    if ← eat (.keyword .ifWord) then
      return .cond test yes (some ⟨[← again nested], nested⟩) loc
    else
      return .cond test yes (some (← body inner)) loc
  else
    return .cond test yes none loc

/-- One statement, in whose bodies the list starts anew, and the rest of the list. -/
def statements (again : List String → Parser (List Statement)) (seen : List String) :
    Parser (List Statement) := do
  match ← peek with
  | none => return []
  | some (.symbol .rightBrace) => return []
  | some _ =>
    let first ← statement (again [])
    let seen ← declare first seen
    return first :: (← again seen)

end Turn

variable {n : Nat}

/-! ## Selectors -/

theorem terms_turn_alike {again again' : Parser (List Term)} (h : Alike 0 n again again') :
    Alike 1 (n + 1) (Turn.terms again) (Turn.terms again') := by
  refine .peek_bind ?_ fun t ts stop hts => ?_
  · exact fun stop => .fail _ _
  · dsimp only
    split
    · refine .advance hts (.bind .peek fun next => .bind .peekSecond fun second => ?_)
      split
      · exact .bind .advance fun _ => .bind h fun more => .pure _
      · exact .pure _
    · exact .fail _ _

theorem terms_counts : Counts (plainTurn Turn.terms) fun n _ => terms n where
  zero _ _ _ := rfl
  succ _ := rfl
  guarded _ _ _ h _ := (terms_turn_alike (h ())).anyway

theorem terms_alike (m : Nat) : Alike 1 n (terms m) (terms m) :=
  Alike.of_turns (fun m (_ : Unit) => terms m) (fun _ => .failExpected _)
    (fun _ _ h _ => terms_turn_alike (h ())) m ()

theorem shorthand_alike : Alike 0 n shorthand shorthand :=
  .andThen (.eat _) fun _ => .ite (.pure _) <|
    .andThen (.eat _) fun _ => .ite (.pure _) (.pure _)

theorem selector_alike : Alike 1 n selector selector :=
  .bind_right .remaining fun m => .bind (terms_alike m) fun _ => .andThen shorthand_alike fun _ =>
    .pure _

/-! ## Expressions -/

theorem chain_turn_alike {operand operand' : Parser Expr} {again again' : Expr → Parser Expr}
    (hoperand : Alike 0 n operand operand') (h : ∀ left, Alike 0 n (again left) (again' left))
    (op? : Token → Option BinaryOp) (left : Expr) :
    Alike 0 (n + 1) (Turn.chain operand op? again left) (Turn.chain operand' op? again' left) := by
  refine .peek_bind (fun stop => Alike.pure left _ (Nat.lt_succ_self _)) fun t ts stop hts => ?_
  split
  · exact Alike.pure left _ (Nat.lt_succ_self _)
  · refine AlikeAt.mono (.advance hts ?_) (Nat.zero_le 1)
    exact .andThen hoperand fun right => h _

theorem chain_counts (operand : Parser Expr) (h : ∀ n, Alike 0 n operand operand)
    (op? : Token → Option BinaryOp) : Counts (Turn.chain operand op?) (chainFrom operand op?) where
  zero _ _ _ := rfl
  succ _ := rfl
  guarded n _ _ hagain := chain_turn_alike (h n) hagain op?

section Operand

variable {operand operand' : Parser Expr} (h : Alike 1 n operand operand')

include h

theorem chainFrom_alike (op? : Token → Option BinaryOp) (m : Nat) (left : Expr) :
    Alike 0 n (chainFrom operand op? m left) (chainFrom operand' op? m left) := by
  induction m generalizing left with
  | zero => exact .pure left
  | succ m ih =>
    refine .andThen .peek fun found => ?_
    split
    · exact .pure left
    · exact .andThen .advance fun _ => .andThen h fun right => ih _

theorem chain_alike (op? : Token → Option BinaryOp) :
    Alike 1 n (chain operand op?) (chain operand' op?) :=
  .bind h fun left => .andThen .remaining fun m => chainFrom_alike h op? m left

theorem comparison_alike : Alike 1 n (comparison operand) (comparison operand') := by
  refine .bind h fun left => .andThen .peek fun found => ?_
  split
  · exact .pure left
  · refine .andThen .advance fun _ => .andThen h fun right => .andThen .peek fun next => ?_
    split
    · exact .fail _
    · exact .pure _

end Operand

theorem unaryOps_alike : Alike 0 n unaryOps unaryOps := by
  refine .of_takes ?_
  rintro ⟨tokens, stop⟩ ops rest ⟨⟩
  exact ⟨_, ⟨List.takeWhile_append_dropWhile.symm, rfl⟩, Nat.zero_le _⟩

theorem unary_alike {primary primary' : Parser Expr} (h : Alike 1 n primary primary') :
    Alike 1 n (unary primary) (unary primary') :=
  .bind_right unaryOps_alike fun _ => .bind h fun _ => .pure _

theorem unary_turn_alike {primary again again' : Parser Expr}
    (hprimary : Alike 1 (n + 1) primary primary) (h : Alike 0 n again again') :
    Alike 1 (n + 1) (Turn.unary primary again) (Turn.unary primary again') := by
  refine .bind_right .here fun loc => .peek_bind ?_ fun t ts stop hts => ?_
  · exact fun stop => hprimary _ (Nat.succ_pos n)
  · split
    · exact hprimary _ (Nat.succ_lt_succ hts)
    · exact .advance hts (.andThen h fun _ => .pure _)

theorem unary_turn_sign (primary again : Parser Expr) (op : UnaryOp) (loc stop : Location)
    (ts : List Located) :
    Turn.unary primary again ⟨mark (unarySign op) loc :: ts, stop⟩ =
      (do return .unary op (← again) loc : Parser Expr) ⟨ts, stop⟩ := by
  cases op <;> rfl

theorem unary_turn_plain (primary again : Parser Expr) {input : TokenList}
    (h : ∀ t ∈ input.tokens.head?, unaryOp? t.token = none) :
    Turn.unary primary again input = primary input := by
  obtain ⟨tokens, stop⟩ := input
  rcases tokens with _ | ⟨t, ts⟩
  · rfl
  · change (match unaryOp? t.token with
      | none => primary
      | some op => _ : Parser Expr) _ = _
    rw [h t rfl]

/-- Signs that are taken all at once are the signs that are taken one by one. -/
theorem unary_eq_turn (primary : Parser Expr) :
    unary primary = Turn.unary primary (unary primary) := by
  funext ⟨tokens, stop⟩
  rcases tokens with _ | ⟨⟨token, loc⟩, ts⟩
  · rw [unary_turn_plain _ _ (fun t ht => by cases ht), unary_plain _ (fun t ht => by cases ht)]
  · cases hop : unaryOp? token with
    | none =>
      have hhead : ∀ t ∈ (⟨token, loc⟩ :: ts).head?, unaryOp? t.token = none := by
        intro t ht
        cases ht
        exact hop
      rw [unary_turn_plain _ _ hhead, unary_plain _ hhead]
    | some op =>
      obtain rfl := unaryOp?_eq_some.1 hop
      rw [unary_turn_sign, unary_sign]

theorem unary_counts {primary : Parser Expr} (h : ∀ n, Alike 1 n primary primary) :
    Counts (plainTurn (Turn.unary primary)) fun _ _ => unary primary where
  zero again _ stop := by
    change unary primary ⟨[], stop⟩ = Turn.unary primary (again ()) ⟨[], stop⟩
    rw [unary_turn_plain _ _ (fun t ht => by cases ht), unary_plain _ (fun t ht => by cases ht)]
  succ _ := funext fun _ => unary_eq_turn primary
  guarded n _ _ hagain _ :=
    (unary_turn_alike (h (n + 1)) (hagain ())).anyway

theorem key_alike : Alike 0 n key key := by
  refine .andThen .peek fun first => .andThen .peekSecond fun second => ?_
  split
  · exact .andThen .advance fun _ => .andThen .advance fun _ => .pure _
  · exact .andThen .advance fun _ => .andThen .advance fun _ => .pure _
  · exact .pure _

theorem args_turn_alike {e e' : Parser Expr} {again again' : Parser (List (Arg Expr))}
    (he : Alike 0 (n + 1) e e') (h : Alike 0 n again again') :
    Alike 1 (n + 1) (Turn.args e again) (Turn.args e' again') :=
  .bind_right key_alike fun _ => .bind_right he fun _ =>
    .eat_ite (.andThen h fun _ => .pure _) (.bind (.expect _ _) fun _ => .pure _)

theorem criteria_alike (list : List (Arg Expr)) : Alike 0 n (criteria list) (criteria list) := by
  induction list with
  | nil => exact .pure _
  | cons arg rest ih =>
    obtain ⟨key, value⟩ := arg
    cases key with
    | some key => exact .andThen ih fun _ => .pure _
    | none => exact .failAt _ _

section Nested

variable {e e' : Parser Expr} (h : Alike 0 n e e')

include h

theorem argsFrom_alike (m : Nat) : Alike 1 n (argsFrom e m) (argsFrom e' m) := by
  cases n with
  | zero => exact .on_none
  | succ n =>
    induction m with
    | zero => exact .failExpected _
    | succ m ih => exact args_turn_alike h ih.anyway.fewer

theorem args_alike : Alike 1 n (args e) (args e') :=
  .eat_ite (.pure _) (.bind_right .remaining fun m => argsFrom_alike h m)

theorem worldForm_alike (loc : Location) : Alike 0 n (worldForm e loc) (worldForm e' loc) :=
  .andThen h fun _ => .andThen (.expect _ _) fun _ => .andThen h fun _ =>
    .andThen (.expect _ _) fun _ => .andThen h fun _ => .andThen (.expect _ _) fun _ => .pure _

theorem nameForm_alike (name : String) (loc : Location) :
    Alike 0 n (nameForm e name loc) (nameForm e' name loc) := by
  refine .andThen (.eat _) fun call => .ite ?_ (.pure _)
  refine .ite (worldForm_alike h loc) (.ite ?_ (.ite ?_ ?_))
  · exact .andThen (.expectText _) fun _ => .andThen (.expect _ _) fun _ => .pure _
  · exact .andThen (args_alike h) fun list => .andThen (criteria_alike list) fun _ => .pure _
  · exact .andThen (args_alike h) fun _ => .pure _

theorem primary_alike : Alike 1 (n + 1) (primary e) (primary e') := by
  refine .bind_right .here fun loc => .peek_bind ?_ fun ⟨token, place⟩ ts stop hts => ?_
  · exact fun stop => .fail _ _
  · cases token with
    | int value => exact .advance hts (.pure _)
    | text value => exact .advance hts (.pure _)
    | name name => exact .advance hts (nameForm_alike h name loc)
    | axis => exact Alike.bind selector_alike (fun _ => .pure _) _ (Nat.succ_lt_succ hts)
    | keyword word =>
      cases word with
      | trueWord => exact .advance hts (.pure _)
      | falseWord => exact .advance hts (.pure _)
      | _ => exact .fail _ _
    | symbol sign =>
      cases sign with
      | leftParen =>
        exact .advance hts (.andThen h fun _ => .andThen (.expect _ _) fun _ => .pure _)
      | _ => exact .fail _ _

end Nested

theorem levels_alike {primary primary' : Parser Expr} (h : Alike 1 n primary primary') :
    Alike 1 n (levels primary) (levels primary') := by
  have hproduct := chain_alike (unary_alike h) multiplicativeOp?
  have hsum := chain_alike hproduct additiveOp?
  exact chain_alike (chain_alike (comparison_alike hsum) conjunctionOp?) disjunctionOp?

theorem expr_turn_alike {again again' : Parser Expr} (h : Alike 0 n again again') :
    Alike 1 (n + 1) (Turn.expr again) (Turn.expr again') :=
  levels_alike (primary_alike h)

theorem expr_counts : Counts (plainTurn Turn.expr) fun n _ => exprWithin n where
  zero _ _ _ := rfl
  succ _ := rfl
  guarded _ _ _ h _ := (expr_turn_alike (h ())).anyway

theorem exprWithin_alike (m : Nat) : Alike 1 n (exprWithin m) (exprWithin m) :=
  Alike.of_turns (fun m (_ : Unit) => exprWithin m) (fun _ => .failExpected _)
    (fun _ _ h _ => expr_turn_alike (h ())) m ()

theorem expr_alike : Alike 1 n expr expr := .bind_right .remaining fun m => exprWithin_alike m

theorem args_counts : Counts (plainTurn (Turn.args expr)) fun n _ => argsFrom expr n where
  zero _ _ _ := rfl
  succ _ := rfl
  guarded _ _ _ h _ := (args_turn_alike expr_alike.anyway (h ())).anyway

/-! ## Statements -/

theorem params_turn_alike {again again' : List Param → Parser (List Param)}
    (h : ∀ before, Alike 0 n (again before) (again' before)) (before : List Param) :
    Alike 1 (n + 1) (Turn.params again before) (Turn.params again' before) := by
  refine .bind_right .here fun typeLoc => .step (.expectName _) fun typeName => ?_
  split
  · exact .failAt _ _
  · refine .andThen .here fun loc => .andThen (.expectName _) fun name => ?_
    exact .ite (.failAt _ _) (.andThen (.eat _) fun comma => .ite (h _) (.pure _))

theorem params_counts : Counts Turn.params paramsFrom where
  zero _ _ _ := rfl
  succ _ := rfl
  guarded _ _ _ h before := (params_turn_alike h before).anyway

theorem paramsFrom_alike (m : Nat) (before : List Param) :
    Alike 1 n (paramsFrom m before) (paramsFrom m before) :=
  Alike.of_turns paramsFrom (fun _ => .failExpected _) (fun _ _ h => params_turn_alike h) m before

theorem params_alike : Alike 0 n params params :=
  .andThen .peek fun _ => .ite (.pure _) <|
    .andThen .remaining fun m => (paramsFrom_alike m []).anyway

theorem assertion_alike (loc : Location) : Alike 0 n (assertion loc) (assertion loc) := by
  refine .andThen (.expect _ _) fun _ => .andThen expr_alike fun test => .andThen (.eat _) fun _ =>
    .ite (.andThen (.bind (.expectText _) fun _ => .pure _) fun message => ?_)
      (.andThen (.pure none) fun message => ?_)
  all_goals exact .andThen (.expect _ _) fun _ => .andThen (.expect _ _) fun _ => .pure _

theorem binding_alike (loc : Location) : Alike 0 n (binding loc) (binding loc) :=
  .andThen (.expectName _) fun _ => .andThen (.expect _ _) fun _ => .andThen expr_alike fun _ =>
    .andThen (.expect _ _) fun _ => .pure _

theorem named_alike (name : String) (loc : Location) :
    Alike 0 n (named name loc) (named name loc) := by
  refine .andThen (.eat _) fun assigned => .ite ?_ (.andThen (.eat _) fun called => .ite ?_ ?_)
  · exact .andThen expr_alike fun _ => .andThen (.expect _ _) fun _ => .pure _
  · exact .andThen (args_alike expr_alike.anyway) fun _ => .andThen (.expect _ _) fun _ => .pure _
  · exact .andThen .peek fun found => .fail _

section Statements

variable {inner inner' : Parser (List Statement)} (h : Alike 0 n inner inner')

include h

theorem body_alike : Alike 1 (n + 1) (body inner) (body inner') := by
  refine .step (.expect _ _) fun loc => .andThen h fun list => .andThen .peek fun found => ?_
  split
  · exact .failAt _ _
  · exact .andThen (.expect _ _) fun _ => .pure _

/-- As a part of a statement whose first token has been taken. -/
theorem body_part_alike : Alike 0 n (body inner) (body inner') := (body_alike h).anyway.fewer

theorem define_alike (loc : Location) : Alike 0 n (define inner loc) (define inner' loc) :=
  .andThen (.expectName _) fun _ => .andThen (.expect _ _) fun _ => .andThen params_alike fun _ =>
    .andThen (.expect _ _) fun _ => .andThen (body_part_alike h) fun _ => .pure _

theorem cond_turn_alike {again again' : Location → Parser Statement}
    (hagain : ∀ loc, Alike 0 n (again loc) (again' loc)) (loc : Location) :
    Alike 1 (n + 1) (Turn.cond inner again loc) (Turn.cond inner' again' loc) := by
  refine .step (.expect _ _) fun _ => .andThen expr_alike fun test => .andThen (.expect _ _)
    fun _ => .andThen (body_part_alike h) fun yes => .andThen (.eat _) fun other =>
      .ite ?_ (.pure _)
  refine .andThen .here fun nested => .andThen (.eat _) fun chained => .ite ?_ ?_
  · exact .andThen (hagain nested) fun _ => .pure _
  · exact .andThen (body_part_alike h) fun _ => .pure _

theorem cond_alike (m : Nat) (loc : Location) :
    Alike 1 (n + 1) (cond inner loc m) (cond inner' loc m) := by
  induction m generalizing loc with
  | zero => exact .failExpected _
  | succ m ih => exact cond_turn_alike h (fun nested => (ih nested).anyway.fewer) loc

theorem repetition_alike (loc : Location) :
    Alike 0 n (repetition inner loc) (repetition inner' loc) := by
  refine .andThen (.expect _ _) fun _ => .andThen .here fun start => .andThen .peek fun first =>
    .andThen .peekSecond fun second => ?_
  split
  · exact .andThen .advance fun _ => .andThen .advance fun _ => .andThen expr_alike fun _ =>
      .andThen (.expect _ _) fun _ => .andThen (body_part_alike h) fun _ => .pure _
  · exact .fail _
  · exact .andThen expr_alike fun _ => .andThen (.expect _ _) fun _ =>
      .andThen (body_part_alike h) fun _ => .pure _

theorem loop_alike (loc : Location) : Alike 0 n (loop inner loc) (loop inner' loc) :=
  .andThen (.expect _ _) fun _ => .andThen expr_alike fun _ => .andThen (.expect _ _) fun _ =>
    .andThen (body_part_alike h) fun _ => .pure _

theorem statement_alike : Alike 1 (n + 1) (statement inner) (statement inner') := by
  refine .bind_right .here fun loc => .peek_bind ?_ fun t ts stop hts => ?_
  · exact fun stop => .fail _ _
  · split
    · exact .advance hts (.pure _)
    · exact Alike.bind (body_alike h) (fun _ => .pure _) _ (Nat.succ_lt_succ hts)
    · exact .advance hts (define_alike h loc)
    · exact .advance hts (.andThen .remaining fun m => (cond_alike h m loc).anyway.fewer)
    · exact .advance hts (repetition_alike h loc)
    · exact .advance hts (loop_alike h loc)
    · exact .advance hts (assertion_alike loc)
    · exact .advance hts (binding_alike loc)
    · exact .advance hts (named_alike _ loc)
    · exact .fail _ _
    · exact .fail _ _

end Statements

theorem cond_counts {inner : Parser (List Statement)} (h : ∀ n, Alike 0 n inner inner) :
    Counts (Turn.cond inner) fun n loc => cond inner loc n where
  zero _ _ _ := rfl
  succ _ := rfl
  guarded n _ _ hagain loc := (cond_turn_alike (h n) hagain loc).anyway

theorem declare_alike (made : Statement) (seen : List String) :
    Alike 0 n (declare made seen) (declare made seen) := by
  unfold declare
  split
  · exact .pure _
  · exact .ite (.failAt _ _) (.pure _)

theorem statements_turn_alike {again again' : List String → Parser (List Statement)}
    (h : ∀ seen, Alike 0 n (again seen) (again' seen)) (seen : List String) :
    Alike 0 (n + 1) (Turn.statements again seen) (Turn.statements again' seen) := by
  refine .andThen .peek fun found => ?_
  split
  · exact .pure _
  · exact .pure _
  · have hrest (first : Statement) := (declare_alike first seen).andThen fun seen =>
      (h seen).andThen fun more => .pure (first :: more)
    exact (Alike.step (statement_alike (h [])) hrest).anyway

theorem statements_counts : Counts Turn.statements statements where
  zero _ _ _ := rfl
  succ _ := rfl
  guarded _ _ _ h := statements_turn_alike h

/-- The statements in a pair of braces, or of a whole program. -/
def statementList : Parser (List Statement) := counted statements []

theorem statementList_alike : Alike 0 n statementList statementList :=
  .andThen .remaining fun m =>
    Alike.of_turns statements (fun _ => .pure _) (fun _ _ h => statements_turn_alike h) m []

end Script

end BlockScript
