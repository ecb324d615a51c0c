import BlockScript.Proofs.Script.ExprCompleteness
import BlockScript.Proofs.Script.Progress
import BlockScript.Proofs.Script.Relocation

/-!
# Positions of a parser

The tokens of a text are numbered from zero, and the end of the text comes after them as the last
one. A call at a position answers with a position further on and not behind the end, or it fails at
one of these tokens; and no call goes on without end, since whatever calls itself has fewer tokens
left each time.
-/
namespace BlockScript
set_option autoImplicit false

namespace TokenList

/-- What is left at a position; at the end and behind it nothing is. -/
def seek (list : TokenList) (position : Nat) : TokenList :=
  ⟨list.tokens.drop position, list.stop⟩

/-- The places of all tokens, with that of the end. -/
def places (list : TokenList) : List Location := list.tokens.map Located.loc ++ [list.stop]

/-- The position behind the token at a position; behind the end there is no more. -/
def next (list : TokenList) (position : Nat) : Nat :=
  if position < list.places.length then position + 1 else position

theorem length_places (list : TokenList) : list.places.length = list.tokens.length + 1 := by
  rw [places, List.length_append, List.length_map, List.length_singleton]

theorem places_seek (list : TokenList) (position : Nat) :
    (list.seek position).places = list.places.drop (min position list.tokens.length) := by
  have hdrop : (list.tokens.map Located.loc).drop (min position list.tokens.length) =
      (list.tokens.drop position).map Located.loc := by
    rw [← List.map_drop, ← List.drop_eq_drop_min]
  have hmin : min position list.tokens.length ≤ (list.tokens.map Located.loc).length := by
    rw [List.length_map]
    exact Nat.min_le_right _ _
  rw [places, places, List.drop_append_of_le_length hmin, hdrop]
  rfl

theorem relocate_of_places {list : TokenList} {f : Location → Location}
    (h : ∀ loc ∈ list.places, f loc = loc) : list.relocate f = list := by
  have htokens : list.tokens.map (Located.relocate f) = list.tokens.map id := by
    refine List.map_congr_left fun t ht => ?_
    have hloc := h t.loc (List.mem_append_left _ (List.mem_map_of_mem ht))
    rw [Located.relocate, hloc]
    rfl
  have hstop := h list.stop (List.mem_append_right _ (List.mem_singleton_self _))
  rw [relocate, htokens, List.map_id, hstop]

end TokenList

/-! ## Where a parser goes, and where it fails -/

variable {α : Type}

/-- From every position of every text a parser only goes forward, and it looks at nothing but the
tokens that are there. -/
structure Parser.Advances (p : Parser α) : Prop where
  /-- A value stands behind at least one more token, and the end has not been passed. -/
  forward : ∀ (list : TokenList) (position : Nat) (a : α) (rest : TokenList),
    p (list.seek position) = .ok (a, rest) →
      ∃ after, position < after ∧ after ≤ list.tokens.length ∧ rest = list.seek after
  /-- An error is at one of the tokens left, or at the end. -/
  inside : ∀ (list : TokenList) (position : Nat) (error : SyntaxError),
    p (list.seek position) = .error error →
      ∃ index, min position list.tokens.length ≤ index ∧ list.places[index]? = some error.loc

/-- A parser that takes a token, whatever it is, and fails where this is the wrong one: the index of
the token is one less than the position that has been reached. No position is further than right
behind the end. -/
def Parser.FailsAtTaken (p : Parser α) : Prop :=
  ∀ (list : TokenList) (position : Nat) (error : SyntaxError), position ≤ list.places.length →
    p (list.seek position) = .error error →
      list.places[list.next position - 1]? = some error.loc

/-- A parser that does not decide by places has them from its tokens only: had an error another
place, this place could be changed without changing a token. -/
theorem Moves.error_place {p : Parser α} (h : ∀ f, ∃ change, Moves f change p p) {input : TokenList}
    {error : SyntaxError} (herror : p input = .error error) : error.loc ∈ input.places := by
  by_contra hnot
  let f (loc : Location) : Location :=
    if loc = error.loc then ⟨error.loc.line + 1, error.loc.column⟩ else loc
  have hinput : input.relocate f = input := by
    refine TokenList.relocate_of_places fun loc hloc => if_neg ?_
    rintro rfl
    exact hnot hloc
  obtain ⟨change, hmoves⟩ := h f
  have hsame := hmoves input
  rw [hinput, herror] at hsame
  have hloc : error.loc = f error.loc := congrArg SyntaxError.loc (Except.error.inj hsame)
  rw [show f error.loc = ⟨error.loc.line + 1, error.loc.column⟩ from if_pos rfl] at hloc
  exact absurd (congrArg Location.line hloc) (Nat.ne_of_lt (Nat.lt_succ_self _))

theorem Parser.Advances.of_alike {p : Parser α} (halike : ∀ n, Alike 1 n p p)
    (hmoves : ∀ f, ∃ change, Moves f change p p) : p.Advances where
  forward list position a rest hok := by
    have htakes := (halike _ (list.seek position) (Nat.lt_succ_self _)).takes a rest hok
    obtain ⟨ts, hts, htaken⟩ := htakes
    have hlength := hts.length_eq
    have htokens : list.tokens.drop position = ts ++ rest.tokens := hts.tokens
    change (list.tokens.drop position).length = _ at hlength
    rw [List.length_drop] at hlength
    refine ⟨position + ts.length, by omega, by omega, ?_⟩
    have hstop : rest.stop = list.stop := hts.stop
    rw [TokenList.seek, ← List.drop_drop, htokens, List.drop_left, ← hstop]
  inside list position error herror := by
    have hmem := Moves.error_place hmoves herror
    rw [TokenList.places_seek] at hmem
    obtain ⟨index, hindex⟩ := List.getElem?_of_mem hmem
    rw [List.getElem?_drop] at hindex
    exact ⟨_, Nat.le_add_right _ index, hindex⟩

theorem TokenList.next_sub_one {list : TokenList} {position : Nat}
    (h : position ≤ list.places.length) :
    list.next position - 1 = min position list.tokens.length := by
  rw [list.length_places] at h
  rw [TokenList.next, list.length_places]
  split <;> omega

/-- An error at what comes next is one at the token that would have been taken. -/
theorem Parser.FailsAtTaken.of_here {p : Parser α}
    (h : ∀ input error, p input = .error error →
      error.loc = (input.tokens.head?.map Located.loc).getD input.stop) : p.FailsAtTaken := by
  intro list position error hposition herror
  rw [TokenList.next_sub_one hposition, ← List.head?_drop, ← list.places_seek, h _ error herror,
    TokenList.places]
  cases (list.seek position).tokens <;> rfl

namespace Script

open BlockScript.Parser BlockScript.Grammar

/-! ## The parsers of a program -/

/-- The parser of a level of precedence. -/
def exprAt (level : Level) : Parser Expr :=
  let product := chain (unary (primary expr)) multiplicativeOp?
  let sum := chain product additiveOp?
  let conjunction := chain (comparison sum) conjunctionOp?
  match level with
  | .disjunction => chain conjunction disjunctionOp?
  | .conjunction => conjunction
  | .comparison => comparison sum
  | .sum => sum
  | .product => product
  | .unary => unary (primary expr)
  | .primary => primary expr

theorem exprAt_alike (level : Level) (n : Nat) : Alike 1 n (exprAt level) (exprAt level) := by
  have hexpr : Alike 0 n expr expr := expr_alike.anyway
  have hprimary := (primary_alike hexpr).fewer
  have hproduct := chain_alike (unary_alike hprimary) multiplicativeOp?
  have hsum := chain_alike hproduct additiveOp?
  have hconjunction := chain_alike (comparison_alike hsum) conjunctionOp?
  cases level with
  | disjunction => exact chain_alike hconjunction disjunctionOp?
  | conjunction => exact hconjunction
  | comparison => exact comparison_alike hsum
  | sum => exact hsum
  | product => exact hproduct
  | unary => exact unary_alike hprimary
  | primary => exact hprimary

theorem exprAt_moves (level : Level) (f : Location → Location) : MovesExpr f (exprAt level) := by
  have hprimary := primary_moves (f := f) expr_moves
  have hproduct := chain_moves (unary_moves hprimary) multiplicativeOp?
  have hsum := chain_moves hproduct additiveOp?
  have hconjunction := chain_moves (comparison_moves hsum) conjunctionOp?
  cases level with
  | disjunction => exact chain_moves hconjunction disjunctionOp?
  | conjunction => exact hconjunction
  | comparison => exact comparison_moves hsum
  | sum => exact hsum
  | product => exact hproduct
  | unary => exact unary_moves hprimary
  | primary => exact hprimary

theorem statementList_moves {f : Location → Location} :
    Moves f (Relocated.statements f) statementList statementList :=
  .bind .remaining fun n => statements_moves n []

/-! ## Errors about a token that has been taken -/

theorem expectText_failsAtTaken (what : String) : (expectText what).FailsAtTaken := by
  refine .of_here ?_
  rintro ⟨tokens, stop⟩ error h
  rcases tokens with _ | ⟨⟨token, loc⟩, ts⟩
  · cases h
    rfl
  · cases token with
    | text value =>
      change Except.ok _ = _ at h
      cases h
    | _ =>
      change Except.error _ = _ at h
      cases h
      rfl

/-- Behind a plus a term is only asked for where an axis follows, so a chain that has begun does not
fail. -/
theorem terms_of_axis {n : Nat} (axis : Axis) (magnitude : Option Int32) (spelling : String)
    (loc stop : Location) {ts : List Located} (hn : ts.length < n) :
    ∃ list rest, terms n ⟨⟨.axis axis magnitude spelling, loc⟩ :: ts, stop⟩ = .ok (list, rest) := by
  induction n generalizing axis magnitude spelling loc ts with
  | zero => omega
  | succ n ih =>
    rw [terms_succ]
    split
    · next hjoins =>
      obtain ⟨plus, axis', magnitude', spelling', loc', more, rfl⟩ := joinsOn_eq_true hjoins
      rw [List.length_cons, List.length_cons] at hn
      have hmore : more.length < n := by omega
      obtain ⟨list, rest, hrest⟩ := ih axis' magnitude' spelling' loc' hmore
      exact ⟨_, rest, bind_ok hrest⟩
    · exact ⟨_, _, rfl⟩

theorem shorthand_isOk (input : TokenList) : ∃ last rest, shorthand input = .ok (last, rest) := by
  rw [shorthand_eq]
  split <;> exact ⟨_, _, rfl⟩

theorem selector_failsAtTaken : selector.FailsAtTaken := by
  refine .of_here ?_
  rintro ⟨tokens, stop⟩ error h
  rcases tokens with _ | ⟨⟨token, loc⟩, ts⟩
  · cases h
    rfl
  · cases token with
    | axis axis magnitude spelling =>
      obtain ⟨list, middle, hlist⟩ :=
        terms_of_axis axis magnitude spelling loc stop (Nat.lt_succ_self ts.length)
      obtain ⟨last, rest, hlast⟩ := shorthand_isOk middle
      have hselector :=
        selector_of_terms ⟨⟨.axis axis magnitude spelling, loc⟩ :: ts, stop⟩ hlist hlast
      rw [hselector] at h
      cases h
    | _ =>
      change Except.error _ = _ at h
      cases h
      rfl

/-! ## Recursions -/

/-- Every parser that calls itself, or turns back in a loop, comes to an end, and what it answers is
settled by an equation that has no count in it. -/
structure Recursions : Prop where
  terms : Descends (plainTurn Turn.terms) (counted fun n _ => Script.terms n)
  unary : Descends (plainTurn (Turn.unary (primary Script.expr)))
    fun _ => Script.unary (primary Script.expr)
  chain : ∀ level : Level, level.grouped = true →
    Descends (Turn.chain (exprAt level.tighter) (opTable level))
      (counted (chainFrom (exprAt level.tighter) (opTable level)))
  expr : Descends (plainTurn Turn.expr) fun _ => Script.expr
  args : Descends (plainTurn (Turn.args Script.expr)) (counted fun n _ => argsFrom Script.expr n)
  params : Descends Turn.params (counted paramsFrom)
  cond : Descends (Turn.cond statementList) (counted fun n loc => Script.cond statementList loc n)
  statements : Descends Turn.statements (counted Script.statements)

theorem recursions : Recursions where
  terms := terms_counts.descends
  unary := (unary_counts (exprAt_alike .primary)).descends
  chain level _ :=
    (chain_counts _ (fun n => (exprAt_alike level.tighter n).anyway) _).descends
  expr := expr_counts.descends
  args := args_counts.descends
  params := params_counts.descends
  cond := (cond_counts fun _ => statementList_alike).descends
  statements := statements_counts.descends

/-- A program from a list of statements, which must go to the end of the text. -/
def wholeProgram (list : Parser (List Statement)) : Parser Program := do
  let all ← list
  match ← peek with
  | none => return all
  | some _ => fail .unexpectedBrace

/-- A selector from a chain of terms. -/
def selectorOf (chain : Parser (List Term)) : Parser Selector := do
  let terms ← chain
  return ⟨terms ++ (← shorthand)⟩

/-- A selector that goes to the end of the text. -/
def wholeSelector (selector : Parser Selector) : Parser Selector := do
  match ← peek with
  | some (.axis ..) =>
    let value ← selector
    match ← peek with
    | none => return value
    | found => fail (.afterSelector found)
  | found => fail (.expected "a selector" found)

/-- From every position of every list of tokens a statement, a body, an expression of any level, the
arguments of a call and a selector are read forward and within the list, also where they fail, and
the two parsers that look back at a token they have taken find it in the list. All that calls itself
on the way comes to an end, and `parse` and `parseSelector` answer for every text what the equations
say, however they are solved. -/
theorem reading_advances_within_tokens :
    (statement statementList).Advances ∧ (body statementList).Advances ∧
    (∀ level, (exprAt level).Advances) ∧ exprAt .disjunction = expr ∧
    (args expr).Advances ∧ selector.Advances ∧
    (∀ what, (expectText what).FailsAtTaken) ∧ selector.FailsAtTaken ∧
    Recursions ∧
    (∀ lists, lists = Turn.statements lists → ∀ source,
      parse source = (wholeProgram (lists [])).runOn source) ∧
    (∀ chain, chain = Turn.terms chain → ∀ source,
      parseSelector source = (wholeSelector (selectorOf chain)).runOn source) := by
  have hexpr (n : Nat) : Alike 0 n expr expr := expr_alike.anyway
  have hstatement (n : Nat) := statement_alike (n := n) statementList_alike
  have hbody (n : Nat) := body_alike (n := n) statementList_alike
  refine ⟨?_, ?_, ?_, ?_, ?_, ?_, expectText_failsAtTaken, selector_failsAtTaken, recursions, ?_,
    ?_⟩
  · exact .of_alike (fun n => (hstatement n).fewer)
      fun f => ⟨_, statement_moves statementList_moves⟩
  · exact .of_alike (fun n => (hbody n).fewer)
      fun f => ⟨_, body_moves statementList_moves⟩
  · exact fun level => .of_alike (exprAt_alike level) fun f => ⟨_, exprAt_moves level f⟩
  · have hturn := (recursions.expr.sole _).2 rfl
    exact (congrFun hturn ()).symm
  · exact .of_alike (fun n => args_alike (hexpr n)) fun f => ⟨_, args_moves expr_moves⟩
  · exact .of_alike (fun n => selector_alike) fun f => ⟨_, selector_moves⟩
  · intro lists hlists source
    rw [(recursions.statements.sole lists).1 hlists]
    rfl
  · intro chain hchain source
    have hterms := (recursions.terms.sole fun _ => chain).1 (funext fun _ => hchain)
    rw [show chain = counted (fun n _ => terms n) () from congrFun hterms ()]
    rfl

end Script

end BlockScript
