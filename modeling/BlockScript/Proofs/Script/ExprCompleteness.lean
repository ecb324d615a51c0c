import BlockScript.Proofs.Script.ExprSoundness

/-!
# Expressions that are spelled are read

Tokens that spell an expression are read as that expression, whatever follows them, as long as it
does not go on with the expression. A level whose operators group from the left is the one place
where the induction needs more: the tokens of the left operand are followed by an operator of the
level itself, so what is said about them is that reading goes on from there.
-/
namespace BlockScript
set_option autoImplicit false

namespace Grammar

open BlockScript.Parser BlockScript.Script

/-! ## The parser of a level -/

/-- The levels whose operators group from the left. -/
def Level.grouped : Level → Bool
  | comparison | unary | primary => false
  | _ => true

def productReader (m : Nat) : Parser Expr :=
  chain (unary (primary (exprWithin m))) multiplicativeOp?

def sumReader (m : Nat) : Parser Expr := chain (productReader m) additiveOp?

def conjunctionReader (m : Nat) : Parser Expr := chain (comparison (sumReader m)) conjunctionOp?

/-- The parser of a level inside `exprWithin`. -/
def reader (m : Nat) : Level → Parser Expr
  | .disjunction => chain (conjunctionReader m) disjunctionOp?
  | .conjunction => conjunctionReader m
  | .comparison => comparison (sumReader m)
  | .sum => sumReader m
  | .product => productReader m
  | .unary => unary (primary (exprWithin m))
  | .primary => primary (exprWithin m)

theorem exprWithin_succ (m : Nat) : exprWithin (m + 1) = reader m .disjunction := rfl

theorem reader_grouped (m : Nat) {level : Level} (h : level.grouped = true) :
    reader m level = chain (reader m level.tighter) (opTable level) := by
  cases level <;> first | rfl | cases h

/-! ## What may follow -/

def Level.depth : Level → Nat
  | disjunction => 0
  | conjunction => 1
  | comparison => 2
  | sum => 3
  | product => 4
  | unary => 5
  | primary => 6

theorem Level.depth_le_tighter (level : Level) : level.depth ≤ level.tighter.depth := by
  cases level <;> decide

/-- The tokens that go on with an expression of a level. -/
def Continues (level : Level) (token : Token) : Prop :=
  token ∈ [Token.symbol .leftParen, .symbol .caret, .symbol .underscore] ∨
    ∃ op, token = .symbol (sign op) ∧ level.depth ≤ (levelOf op).depth

/-- An expression of the level that ends here is not followed by more of it. -/
structure Free (level : Level) (ts rest : List Located) : Prop where
  head : ∀ t ∈ rest.head?, ¬ Continues level t.token
  apart : ¬ Open ts rest

theorem Free.tighter {level : Level} {ts rest : List Located} (h : Free level ts rest) :
    Free level.tighter ts rest := by
  refine ⟨fun t ht hcontinues => h.head t ht ?_, h.apart⟩
  rcases hcontinues with hmem | ⟨op, htoken, hdepth⟩
  · exact .inl hmem
  · exact .inr ⟨op, htoken, Nat.le_trans level.depth_le_tighter hdepth⟩

theorem Free.nextOp_eq_none {level : Level} {ts rest : List Located} (h : Free level ts rest) :
    nextOp (opTable level) rest = none := by
  cases hop : nextOp (opTable level) rest with
  | none => rfl
  | some op =>
    obtain ⟨loc, more, rfl, hlevel⟩ := nextOp_eq_some (opTable_isTable level) hop
    exact absurd (.inr ⟨op, rfl, hlevel ▸ Nat.le_refl _⟩) (h.head _ rfl)

theorem sign_injective {op op' : BinaryOp} (h : sign op = sign op') : op = op' := by
  cases op <;> cases op' <;> first | rfl | cases h

theorem depth_levelOf_lt (op : BinaryOp) : (levelOf op).depth < (levelOf op).tighter.depth := by
  cases op <;> decide

/-- An operator does not go on with its left operand. -/
theorem Free.of_operator {op : BinaryOp} {left right : List Located} (hright : right ≠ [])
    (hapart : ¬ Joined left (sign op) right) (loc : Location) (rest : List Located) :
    Free (levelOf op).tighter left (mark (sign op) loc :: (right ++ rest)) := by
  refine ⟨fun t ht hcontinues => ?_, fun hopen => hapart ((joined_iff_open loc hright).2 hopen)⟩
  cases ht
  rcases hcontinues with hmem | ⟨op', htoken, hdepth⟩
  · cases op <;> simp [sign] at hmem
  · obtain rfl := sign_injective (Token.symbol.inj htoken)
    exact absurd hdepth (Nat.not_le.2 (depth_levelOf_lt op))

/-- The right operand is followed by what follows the whole. -/
theorem Free.right {level : Level} {left right rest : List Located} {op : Located}
    (hright : right ≠ []) (h : Free level (left ++ op :: right) rest) : Free level right rest :=
  ⟨h.head, fun hopen => h.apart ((open_binary hright).2 hopen)⟩

def isCloser : Symbol → Bool
  | .rightParen | .comma | .semicolon => true
  | _ => false

theorem Free.of_closer {s : Symbol} (hs : isCloser s = true) (level : Level)
    (ts rest : List Located)
    (loc : Location) : Free level ts (mark s loc :: rest) := by
  refine ⟨fun t ht hcontinues => ?_, fun hopen => ?_⟩
  · cases ht
    rcases hcontinues with hmem | ⟨op, htoken, -⟩
    · cases s <;> simp at hmem <;> cases hs
    · obtain rfl := Token.symbol.inj htoken
      cases op <;> cases hs
  · obtain ⟨_, _, _, _, _, _, heq⟩ := joinsOn_eq_true hopen.2
    cases heq
    cases hs

/-! ## Reading -/

/-- The tokens are read as the expression, up to what follows them. -/
def Read (m : Nat) (level : Level) (ts : List Located) (e : Expr) : Prop :=
  ∀ rest stop, (ts ++ rest).length ≤ m + 1 → Free level ts rest →
    reader m level ⟨ts ++ rest, stop⟩ = .ok (e, ⟨rest, stop⟩)

/-- The tokens are read as the left end of a chain, which may go on with operators of the level. -/
def ReadOn (m : Nat) (level : Level) (ts : List Located) (e : Expr) : Prop :=
  ∀ rest stop, (ts ++ rest).length ≤ m + 1 → Free level.tighter ts rest →
    ∃ n, rest.length ≤ n ∧ reader m level ⟨ts ++ rest, stop⟩ =
      chainFrom (reader m level.tighter) (opTable level) n e ⟨rest, stop⟩

/-- All that is read at a level. -/
structure Reached (m : Nat) (level : Level) (ts : List Located) (e : Expr) : Prop where
  read : Read m level ts e
  readOn : level.grouped = true → ReadOn m level ts e

variable {m : Nat} {level : Level} {ts : List Located} {e : Expr}

theorem ReadOn.read (h : ReadOn m level ts e) : Read m level ts e := by
  intro rest stop hm hfree
  obtain ⟨n, -, hreader⟩ := h rest stop hm hfree.tighter
  rw [hreader, chainFrom_stop hfree.nextOp_eq_none]

theorem ReadOn.reached (h : ReadOn m level ts e) : Reached m level ts e := ⟨h.read, fun _ => h⟩

theorem Read.reached (hlevel : level.grouped = false) (h : Read m level ts e) :
    Reached m level ts e :=
  ⟨h, fun hgrouped => by rw [hlevel] at hgrouped; cases hgrouped⟩

/-- A tighter expression is the left end of a chain. -/
theorem Read.readOn (hlevel : level.grouped = true) (h : Read m level.tighter ts e) :
    ReadOn m level ts e := by
  intro rest stop hm hfree
  refine ⟨rest.length, Nat.le_refl _, ?_⟩
  rw [reader_grouped m hlevel]
  exact bind_ok (h rest stop hm hfree)

theorem ReadOn.binary {op : BinaryOp} {loc : Location} {left right : List Located} {l r : Expr}
    (hright : right ≠ []) (hapart : ¬ Joined left (sign op) right)
    (hl : ReadOn m (levelOf op) left l)
    (hr : Read m (levelOf op).tighter right r) :
    ReadOn m (levelOf op) (left ++ mark (sign op) loc :: right) (.binary op l r) := by
  intro rest stop hm hfree
  rw [List.append_assoc, List.cons_append] at hm ⊢
  obtain ⟨n, hn, hreader⟩ := hl _ stop hm (.of_operator hright hapart loc rest)
  rw [List.length_append, List.length_cons] at hm
  rw [List.length_cons, List.length_append] at hn
  obtain ⟨n, rfl⟩ : ∃ k, n = k + 1 := ⟨n - 1, by omega⟩
  refine ⟨n, by omega, ?_⟩
  rw [hreader, chainFrom_step ((opTable_isTable (levelOf op) _ op).2 ⟨rfl, rfl⟩)]
  exact bind_ok (hr rest stop (by omega) (hfree.right hright))

theorem Read.comparison {op : BinaryOp} {loc : Location} {left right : List Located} {l r : Expr}
    (hlevel : levelOf op = .comparison) (hright : right ≠ [])
    (hapart : ¬ Joined left (sign op) right) (hl : Read m .sum left l) (hr : Read m .sum right r) :
    Read m .comparison (left ++ mark (sign op) loc :: right) (.binary op l r) := by
  intro rest stop hm hfree
  rw [List.append_assoc, List.cons_append] at hm ⊢
  have hoperator := Free.of_operator hright hapart loc rest
  rw [hlevel] at hoperator
  have hleft := hl _ stop hm hoperator
  rw [List.length_append, List.length_cons] at hm
  refine (comparison_pair hleft ((opTable_isTable .comparison _ op).2 ⟨rfl, hlevel⟩)).trans ?_
  refine (bind_ok (hr rest stop (by omega) (hfree.right hright).tighter)).trans ?_
  refine (bind_ok (peek_eq ⟨rest, stop⟩)).trans ?_
  have hnext : nextOp comparisonOp? rest = none := hfree.nextOp_eq_none
  unfold nextOp at hnext
  rw [hnext]
  rfl

theorem Spells.primary_head (h : Spells ts (.expr .primary e)) :
    ∃ first more, ts = first :: more ∧ unaryOp? first.token = none := by
  generalize hform : Form.expr .primary e = form at h
  cases h with
  | lift hlevel h =>
    cases hform
    exact absurd rfl hlevel
  | binary op =>
    cases op <;> cases hform
  | selector h =>
    obtain ⟨axis, magnitude, spelling, loc, more, heq⟩ := h.head
    cases heq
    exact ⟨_, _, rfl, rfl⟩
  | unary | noArgs | lastArg | moreArgs => cases hform
  | _ => exact ⟨_, _, rfl, rfl⟩

/-- An expression of a level is one of every looser level too. -/
theorem Reached.lift (hlevel : level ≠ .primary) (hspells : Spells ts (.expr level.tighter e))
    (h : Reached m level.tighter ts e) : Reached m level ts e := by
  cases level with
  | primary => exact absurd rfl hlevel
  | comparison =>
    refine Read.reached rfl fun rest stop hm hfree => ?_
    exact comparison_alone (h.read rest stop hm hfree.tighter) hfree.nextOp_eq_none
  | unary =>
    refine Read.reached rfl fun rest stop hm hfree => ?_
    obtain ⟨first, more, rfl, hhead⟩ := hspells.primary_head
    refine (unary_plain _ fun t ht => ?_).trans (h.read rest stop hm hfree.tighter)
    cases ht
    exact hhead
  | _ => exact (h.read.readOn rfl).reached

theorem Reached.binary {op : BinaryOp} {loc : Location} {left right : List Located} {l r : Expr}
    (hright : right ≠ []) (hapart : ¬ Joined left (sign op) right)
    (hl : Reached m (leftLevel op) left l) (hr : Reached m (levelOf op).tighter right r) :
    Reached m (levelOf op) (left ++ mark (sign op) loc :: right) (.binary op l r) := by
  by_cases hlevel : levelOf op = .comparison
  · rw [leftLevel, if_pos hlevel] at hl
    rw [hlevel] at hr ⊢
    exact (Read.comparison hlevel hright hapart hl.read hr.read).reached rfl
  · rw [leftLevel, if_neg hlevel] at hl
    have hgrouped : (levelOf op).grouped = true := by
      cases op <;> first | rfl | exact absurd rfl hlevel
    exact ((hl.readOn hgrouped).binary hright hapart hr.read).reached

theorem Reached.unary {op : UnaryOp} {loc : Location} (hts : ts ≠ [])
    (h : Reached m .unary ts e) :
    Reached m .unary (mark (unarySign op) loc :: ts) (.unary op e loc) := by
  refine Read.reached rfl fun rest stop hm hfree => ?_
  refine (unary_sign _ op loc stop (ts ++ rest)).trans ?_
  rw [List.cons_append, List.length_cons] at hm
  have hfree' : Free .unary ts rest := by
    refine ⟨hfree.head, fun hopen => hfree.apart ?_⟩
    rw [Open, endsInAxis_cons hts]
    exact hopen
  exact bind_ok (h.read rest stop (by omega) hfree')

/-! ## Selectors -/

theorem terms_complete {list : List Term} (h : Terms ts list) {n : Nat} (hn : ts.length ≤ n)
    {rest : List Located} (hrest : joinsOn rest = false) (stop : Location) :
    terms n ⟨ts ++ rest, stop⟩ = .ok (list, ⟨rest, stop⟩) := by
  induction h generalizing n with
  | one axis magnitude spelling loc =>
    cases n with
    | zero => cases hn
    | succ n =>
      refine (terms_succ n axis magnitude spelling loc stop rest).trans ?_
      rw [hrest]
      rfl
  | @more axis magnitude spelling loc plus ts terms h ih =>
    rw [List.length_cons, List.length_cons] at hn
    cases n with
    | zero => omega
    | succ n =>
      have hjoins : joinsOn (mark .plus plus :: (ts ++ rest)) = true := by
        obtain ⟨_, _, _, _, _, rfl⟩ := h.head
        rfl
      refine (terms_succ n axis magnitude spelling loc stop
        (mark .plus plus :: (ts ++ rest))).trans ?_
      rw [if_pos hjoins]
      exact bind_ok (ih (by omega))

theorem joinsOn_eq_false {rest : List Located} (hts : endsInAxis ts = true)
    (h : ¬ Open ts rest) : joinsOn rest = false :=
  Bool.eq_false_iff.2 fun hjoins => h ⟨hts, hjoins⟩

theorem selector_of_terms (input : TokenList) {list last : List Term} {middle rest : TokenList}
    (hlist : terms input.tokens.length input = .ok (list, middle))
    (hlast : shorthand middle = .ok (last, rest)) :
    selector input = .ok (⟨list ++ last⟩, rest) := by
  change (do
    let chain ← terms input.tokens.length
    return ⟨chain ++ (← shorthand)⟩ : Parser Selector) input = _
  rw [bind_ok hlist, bind_ok hlast]
  rfl

theorem selector_complete {value : Selector} (h : Chain ts value) {rest : List Located}
    (hfree : Free .primary ts rest) (stop : Location) :
    selector ⟨ts ++ rest, stop⟩ = .ok (value, ⟨rest, stop⟩) := by
  cases h with
  | @plain _ terms h =>
    have hlength : ts.length ≤ (ts ++ rest).length := by
      rw [List.length_append]
      omega
    have hlist := terms_complete h hlength (joinsOn_eq_false h.endsInAxis hfree.apart) stop
    have hlast : shorthand ⟨rest, stop⟩ = .ok ([], ⟨rest, stop⟩) := by
      rw [shorthand_eq]
      split
      · next loc more heq =>
        subst heq
        exact absurd (.inl (by simp)) (hfree.head _ rfl)
      · next loc more heq =>
        subst heq
        exact absurd (.inl (by simp)) (hfree.head _ rfl)
      · rfl
    have hvalue := selector_of_terms ⟨ts ++ rest, stop⟩ hlist hlast
    rwa [List.append_nil] at hvalue
  | @up us terms h loc =>
    rw [List.append_assoc]
    refine selector_of_terms _ (terms_complete h ?_ rfl stop) rfl
    rw [List.length_append]
    omega
  | @down us terms h loc =>
    rw [List.append_assoc]
    refine selector_of_terms _ (terms_complete h ?_ rfl stop) rfl
    rw [List.length_append]
    omega

/-! ## Calls -/

/-- The key of an argument and its colon come next. -/
def keyed : List Located → Bool
  | ⟨.name _, _⟩ :: ⟨.symbol .colon, _⟩ :: _ => true
  | ⟨.axis .., _⟩ :: ⟨.symbol .colon, _⟩ :: _ => true
  | _ => false

theorem key_positional {input : TokenList} (h : keyed input.tokens = false) :
    key input = .ok (none, input) := by
  rw [key_eq]
  split
  · next heq =>
    rw [heq] at h
    cases h
  · next heq =>
    rw [heq] at h
    cases h
  · rfl

/-- The next token is not a colon. -/
def NoColon (rest : List Located) : Prop := ∀ t ∈ rest.head?, t.token ≠ .symbol .colon

theorem NoColon.of_mark {s : Symbol} (hs : s ≠ .colon) (loc : Location) (rest : List Located) :
    NoColon (mark s loc :: rest) := by
  intro t ht htoken
  cases ht
  exact hs (Token.symbol.inj htoken)

theorem NoColon.keyed_cons {rest : List Located} (hrest : NoColon rest) (t : Located) :
    keyed (t :: rest) = false := by
  unfold keyed
  split
  · next heq =>
    cases heq
    exact absurd rfl (hrest _ rfl)
  · next heq =>
    cases heq
    exact absurd rfl (hrest _ rfl)
  · rfl

theorem Terms.not_keyed {list : List Term} (h : Terms ts list) {rest : List Located}
    (hrest : NoColon rest) : keyed (ts ++ rest) = false := by
  cases h with
  | one => exact hrest.keyed_cons _
  | more => rfl

theorem Chain.not_keyed {value : Selector} (h : Chain ts value) {rest : List Located}
    (hrest : NoColon rest) : keyed (ts ++ rest) = false := by
  cases h with
  | plain h => exact h.not_keyed hrest
  | up h loc =>
    rw [List.append_assoc]
    exact h.not_keyed (.of_mark (by decide) loc rest)
  | down h loc =>
    rw [List.append_assoc]
    exact h.not_keyed (.of_mark (by decide) loc rest)

/-- No expression starts like a named argument. -/
theorem Spells.not_keyed (h : Spells ts (.expr level e)) {rest : List Located}
    (hrest : NoColon rest) : keyed (ts ++ rest) = false := by
  generalize hform : Form.expr level e = form at h
  induction h generalizing level e rest with
  | lift hlevel h ih => exact ih hrest rfl
  | binary op loc hleft hright hapart ihleft ihright =>
    rw [List.append_assoc]
    exact ihleft (.of_mark (by cases op <;> decide) loc _) rfl
  | unary op => cases op <;> rfl
  | selector h => exact h.not_keyed hrest
  | ident name loc => exact hrest.keyed_cons _
  | noArgs | lastArg | moreArgs => cases hform
  | _ => rfl

/-- Up to a number of tokens the parser is one of those that count down. -/
def Deep (p : Parser Expr) (bound : Nat) : Prop :=
  ∀ input, input.tokens.length ≤ bound →
    ∃ n, input.tokens.length ≤ n ∧ p input = exprWithin n input

theorem Deep.exprWithin (n : Nat) : Deep (exprWithin n) n := fun _ h => ⟨n, h, rfl⟩

theorem Deep.expr (n : Nat) : Deep expr n :=
  fun input _ => ⟨input.tokens.length, Nat.le_refl _, rfl⟩

/-- The tokens are read as the expression at every depth. -/
structure Known (ts : List Located) (e : Expr) : Prop where
  ne_nil : ts ≠ []
  reached : ∀ m, Reached m .disjunction ts e

theorem Known.read (h : Known ts e) {p : Parser Expr} {bound : Nat} (hp : Deep p bound) {s : Symbol}
    (hs : isCloser s = true) {loc stop : Location} {rest : List Located}
    (hbound : (ts ++ mark s loc :: rest).length ≤ bound) :
    p ⟨ts ++ mark s loc :: rest, stop⟩ = .ok (e, ⟨mark s loc :: rest, stop⟩) := by
  obtain ⟨n, hn, heq⟩ := hp ⟨ts ++ mark s loc :: rest, stop⟩ hbound
  dsimp only at hn
  cases n with
  | zero =>
    rw [List.length_append] at hn
    exact absurd (List.length_pos_iff.2 h.ne_nil) (by omega)
  | succ m =>
    rw [heq, exprWithin_succ]
    exact (h.reached m).read _ stop hn (.of_closer hs .disjunction ts rest loc)

theorem Key.read {ks : List Located} {found : Option String} (h : Key ks found)
    {us : List Located} (hus : keyed us = false) (stop : Location) :
    key ⟨ks ++ us, stop⟩ = .ok (found, ⟨us, stop⟩) := by
  cases h with
  | positional => exact key_positional hus
  | name => rfl
  | axis => rfl

section Arguments

variable {p : Parser Expr} {bound : Nat} {ks : List Located} {found : Option String}

theorem argsFrom_last (hp : Deep p bound) (hkey : Key ks found) (h : Known ts e)
    (hspells : Spells ts (.expr .disjunction e)) {rest : List Located} {rp stop : Location}
    (hbound : (ts ++ mark .rightParen rp :: rest).length ≤ bound) (n : Nat) :
    argsFrom p (n + 1) ⟨ks ++ (ts ++ mark .rightParen rp :: rest), stop⟩ =
      .ok ([⟨found, e⟩], ⟨rest, stop⟩) := by
  have hcolon : keyed (ts ++ mark .rightParen rp :: rest) = false :=
    hspells.not_keyed (.of_mark (by decide) rp rest)
  refine (bind_ok (hkey.read hcolon stop)).trans ?_
  refine (bind_ok (h.read hp rfl hbound)).trans ?_
  refine (bind_ok (eat_cons_ne (fun htoken => (by cases htoken)) rest stop)).trans ?_
  exact bind_ok (expect_cons .rightParen _ rp stop rest)

theorem argsFrom_more (hp : Deep p bound) (hkey : Key ks found) (h : Known ts e)
    (hspells : Spells ts (.expr .disjunction e)) {more rest : List Located}
    {list : List (Arg Expr)} {comma stop : Location} {n : Nat}
    (hbound : (ts ++ mark .comma comma :: more).length ≤ bound)
    (hmore : argsFrom p n ⟨more, stop⟩ = .ok (list, ⟨rest, stop⟩)) :
    argsFrom p (n + 1) ⟨ks ++ (ts ++ mark .comma comma :: more), stop⟩ =
      .ok (⟨found, e⟩ :: list, ⟨rest, stop⟩) := by
  have hcolon : keyed (ts ++ mark .comma comma :: more) = false :=
    hspells.not_keyed (.of_mark (by decide) comma more)
  refine (bind_ok (hkey.read hcolon stop)).trans ?_
  refine (bind_ok (h.read hp rfl hbound)).trans ?_
  refine (bind_ok (eat_cons _ comma stop more)).trans ?_
  exact bind_ok hmore

end Arguments

/-- What the tokens of an expression or of arguments are read as. -/
def Complete (ts : List Located) : Form → Prop
  | .expr level e => ∀ m, Reached m level ts e
  | .args list => list ≠ [] → ∀ p bound, Deep p bound → ∀ rest rp stop n,
    (ts ++ mark .rightParen rp :: rest).length ≤ bound → ts.length ≤ n →
    argsFrom p n ⟨ts ++ mark .rightParen rp :: rest, stop⟩ = .ok (list, ⟨rest, stop⟩)

theorem Key.head {ks : List Located} {found : Option String} (hkey : Key ks found)
    (h : Spells ts (.expr level e)) :
    ∃ first more, ks ++ ts = first :: more ∧ startsExpr first.token = true := by
  cases hkey with
  | positional => exact h.head
  | name => exact ⟨_, _, rfl, rfl⟩
  | axis => exact ⟨_, _, rfl, rfl⟩

theorem Spells.args_head {list : List (Arg Expr)} (h : Spells ts (.args list)) (hlist : list ≠ []) :
    ∃ first more, ts = first :: more ∧ startsExpr first.token = true := by
  cases h with
  | noArgs => exact absurd rfl hlist
  | lastArg hkey h => exact hkey.head h
  | moreArgs comma hkey h =>
    obtain ⟨first, more, heq, hfirst⟩ := hkey.head h
    rw [heq]
    exact ⟨first, _, rfl, hfirst⟩

theorem args_complete {list : List (Arg Expr)} (h : Spells ts (.args list))
    (hcomplete : Complete ts (.args list)) {p : Parser Expr} {bound : Nat} (hp : Deep p bound)
    {rest : List Located} {rp stop : Location}
    (hbound : (ts ++ mark .rightParen rp :: rest).length ≤ bound) :
    args p ⟨ts ++ mark .rightParen rp :: rest, stop⟩ = .ok (list, ⟨rest, stop⟩) := by
  cases list with
  | nil =>
    cases h
    exact bind_ok (eat_cons _ rp stop rest)
  | cons arg list =>
    obtain ⟨first, more, rfl, hfirst⟩ := h.args_head (List.cons_ne_nil _ _)
    have hparen : first.token ≠ .symbol .rightParen := by
      intro htoken
      rw [htoken] at hfirst
      cases hfirst
    refine (bind_ok (eat_cons_ne hparen _ stop)).trans ?_
    refine hcomplete (List.cons_ne_nil _ _) p bound hp rest rp stop _ hbound ?_
    exact (List.sublist_append_left (first :: more) (mark .rightParen rp :: rest)).length_le

section Forms

variable {p : Parser Expr} {bound : Nat}

theorem worldForm_complete (hp : Deep p bound) {xs ys zs rest : List Located} {x y z : Expr}
    (hx : Known xs x) (hy : Known ys y) (hz : Known zs z) {loc first second rp stop : Location}
    (hbound : (xs ++ mark .comma first :: (ys ++ mark .comma second ::
      (zs ++ mark .rightParen rp :: rest))).length ≤ bound) :
    worldForm p loc ⟨xs ++ mark .comma first :: (ys ++ mark .comma second ::
      (zs ++ mark .rightParen rp :: rest)), stop⟩ = .ok (.world x y z loc, ⟨rest, stop⟩) := by
  have hys : (ys ++ mark .comma second :: (zs ++ mark .rightParen rp :: rest)).length ≤ bound := by
    rw [List.length_append, List.length_cons] at hbound
    omega
  have hzs : (zs ++ mark .rightParen rp :: rest).length ≤ bound := by
    rw [List.length_append, List.length_cons] at hys
    omega
  refine (bind_ok (hx.read hp rfl hbound)).trans ?_
  refine (bind_ok (expect_cons .comma _ first stop _)).trans ?_
  refine (bind_ok (hy.read hp rfl hys)).trans ?_
  refine (bind_ok (expect_cons .comma _ second stop _)).trans ?_
  refine (bind_ok (hz.read hp rfl hzs)).trans ?_
  exact bind_ok (expect_cons .rightParen _ rp stop rest)

/-- A name with an opening parenthesis behind it is a call. -/
theorem primary_call (name : String) (loc lp stop : Location) (ts : List Located) :
    primary p ⟨⟨.name name, loc⟩ :: mark .leftParen lp :: ts, stop⟩ =
      (if name = "world" then worldForm p loc
      else if name = "waypoint" then waypointForm loc
      else if name = "block" then do return .query (← criteria (← args p)) loc
      else do return .predicate name (← args p) loc : Parser Expr) ⟨ts, stop⟩ := rfl

theorem primary_ident {name : String} {loc stop : Location} {ts : List Located}
    (h : ∀ t ∈ ts.head?, t.token ≠ .symbol .leftParen) :
    primary p ⟨⟨.name name, loc⟩ :: ts, stop⟩ = .ok (.ident name loc, ⟨ts, stop⟩) := by
  change nameForm p name loc ⟨ts, stop⟩ = _
  exact bind_ok (eat_of_ne h stop)

end Forms

theorem Spells.complete {form : Form} (h : Spells ts form) : Complete ts form := by
  induction h with
  | lift hlevel h ih => exact fun m => .lift hlevel h (ih m)
  | binary op loc hleft hright hapart ihleft ihright =>
    exact fun m => .binary hright.ne_nil hapart (ihleft m) (ihright m)
  | unary op loc h ih => exact fun m => .unary h.ne_nil (ih m)
  | int value loc => exact fun m => Read.reached rfl fun rest stop hm hfree => rfl
  | text value loc => exact fun m => Read.reached rfl fun rest stop hm hfree => rfl
  | trueWord loc => exact fun m => Read.reached rfl fun rest stop hm hfree => rfl
  | falseWord loc => exact fun m => Read.reached rfl fun rest stop hm hfree => rfl
  | @parens ts e lp rp h ih =>
    refine fun m => Read.reached rfl fun rest stop hm hfree => ?_
    simp only [List.cons_append, List.append_assoc, List.nil_append, List.length_cons] at hm ⊢
    have hinner : exprWithin m ⟨ts ++ mark .rightParen rp :: rest, stop⟩ = _ :=
      Known.read ⟨h.ne_nil, ih⟩ (.exprWithin m) rfl (by omega)
    refine (bind_ok hinner).trans ?_
    exact bind_ok (expect_cons .rightParen _ rp stop rest)
  | @selector first ts value h =>
    refine fun m => Read.reached rfl fun rest stop hm hfree => ?_
    obtain ⟨axis, magnitude, spelling, loc, more, heq⟩ := h.head
    cases heq
    exact bind_ok (selector_complete h hfree stop)
  | ident name loc =>
    refine fun m => Read.reached rfl fun rest stop hm hfree => ?_
    refine primary_ident fun t ht htoken => hfree.head t ht (.inl ?_)
    rw [htoken]
    exact List.mem_cons_self
  | world loc lp first second rp hx hy hz ihx ihy ihz =>
    refine fun m => Read.reached rfl fun rest stop hm hfree => ?_
    simp only [List.cons_append, List.append_assoc, List.nil_append, List.length_cons] at hm ⊢
    refine (primary_call "world" loc lp stop _).trans ?_
    exact worldForm_complete (.exprWithin m) ⟨hx.ne_nil, ihx⟩ ⟨hy.ne_nil, ihy⟩ ⟨hz.ne_nil, ihz⟩
      (by omega)
  | waypoint name loc lp place rp => exact fun m => Read.reached rfl fun rest stop hm hfree => rfl
  | query loc lp rp h ih =>
    refine fun m => Read.reached rfl fun rest stop hm hfree => ?_
    simp only [List.cons_append, List.append_assoc, List.nil_append, List.length_cons] at hm ⊢
    refine (primary_call "block" loc lp stop _).trans ?_
    refine (bind_ok (args_complete h ih (.exprWithin m) (by omega))).trans ?_
    exact bind_ok (criteria_eq_ok.2 ⟨rfl, rfl⟩)
  | predicate name loc lp rp hname h ih =>
    refine fun m => Read.reached rfl fun rest stop hm hfree => ?_
    simp only [List.cons_append, List.append_assoc, List.nil_append, List.length_cons] at hm ⊢
    simp only [formNames, List.mem_cons, List.not_mem_nil, or_false, not_or] at hname
    refine (primary_call name loc lp stop _).trans ?_
    rw [if_neg hname.1, if_neg hname.2.1, if_neg hname.2.2]
    exact bind_ok (args_complete h ih (.exprWithin m) (by omega))
  | noArgs => exact fun hlist => absurd rfl hlist
  | @lastArg ks ts key e hkey h ih =>
    intro _ p bound hp rest rp stop n hbound hn
    have hpos : 0 < ts.length := List.length_pos_iff.2 h.ne_nil
    rw [List.length_append] at hn
    obtain ⟨n, rfl⟩ : ∃ k, n = k + 1 := ⟨n - 1, by omega⟩
    rw [List.append_assoc, List.length_append] at hbound
    rw [List.append_assoc]
    exact argsFrom_last hp hkey ⟨h.ne_nil, ih⟩ h (by omega) n
  | @moreArgs ks ts others key e list comma hkey h hlist hrest ih ihrest =>
    intro _ p bound hp rest rp stop n hbound hn
    rw [List.length_append, List.length_append, List.length_cons] at hn
    obtain ⟨n, rfl⟩ : ∃ k, n = k + 1 := ⟨n - 1, by omega⟩
    simp only [List.cons_append, List.append_assoc] at hbound ⊢
    rw [List.length_append] at hbound
    have hothers : (others ++ mark .rightParen rp :: rest).length ≤ bound := by
      rw [List.length_append, List.length_cons] at hbound
      omega
    have hmore := ihrest hlist p bound hp rest rp stop n hothers (by omega)
    exact argsFrom_more hp hkey ⟨h.ne_nil, ih⟩ h (by omega) hmore

/-- An expression that a closing token follows is read whole. -/
theorem expr_complete (h : Spells ts (.expr .disjunction e)) {s : Symbol} (hs : isCloser s = true)
    (loc stop : Location) (rest : List Located) :
    expr ⟨ts ++ mark s loc :: rest, stop⟩ = .ok (e, ⟨mark s loc :: rest, stop⟩) :=
  Known.read ⟨h.ne_nil, h.complete⟩ (.expr _) hs (Nat.le_refl _)

theorem args_expr_complete {list : List (Arg Expr)} (h : Spells ts (.args list))
    (rp stop : Location) (rest : List Located) :
    args expr ⟨ts ++ mark .rightParen rp :: rest, stop⟩ = .ok (list, ⟨rest, stop⟩) :=
  args_complete h h.complete (.expr _) (Nat.le_refl _)

end Grammar

end BlockScript
