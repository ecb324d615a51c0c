import BlockScript.Proofs.Script.Braces
import BlockScript.Proofs.Token.Lossless

/-!
# Braces that are not closed

A parser complains of a brace that is not closed only where the text ends, and then of the innermost
one. Conversely a script that is cut off inside of a block, behind a whole statement or behind the
brace that opens the block, is refused for this brace and for nothing else.
-/
namespace BlockScript
set_option autoImplicit false

/-! ## Parsers that never complain of a brace -/

/-- The parser fails, if it does, for some other reason than a brace that is not closed. -/
def Mild {α : Type} (p : Parser α) : Prop :=
  ∀ input error, p input = .error error → error.fault ≠ .unclosedBrace

namespace Mild

variable {α β : Type} {p : Parser α}

theorem of_ok (h : ∀ input, ∃ found, p input = .ok found) : Mild p := by
  intro input error hfailed
  obtain ⟨found, hfound⟩ := h input
  cases hfound.symm.trans hfailed

theorem pure (a : α) : Mild (pure a : Parser α) := .of_ok fun _ => ⟨_, rfl⟩

theorem bind {k : α → Parser β} (hp : Mild p) (hk : ∀ a, Mild (k a)) : Mild (p >>= k) := by
  intro input error h
  rcases Parser.bind_eq_error h with h | ⟨a, middle, -, h⟩
  · exact hp input error h
  · exact hk a middle error h

theorem ite {c : Prop} [Decidable c] {q : Parser α} (hp : Mild p) (hq : Mild q) :
    Mild (if c then p else q) := by
  split
  · exact hp
  · exact hq

theorem here : Mild Parser.here := .of_ok fun _ => ⟨_, rfl⟩

theorem peek : Mild Parser.peek := .of_ok fun _ => ⟨_, rfl⟩

theorem peekSecond : Mild Parser.peekSecond := .of_ok fun _ => ⟨_, rfl⟩

theorem remaining : Mild Parser.remaining := .of_ok fun _ => ⟨_, rfl⟩

theorem advance : Mild Parser.advance := .of_ok fun _ => ⟨_, rfl⟩

theorem failAt {fault : SyntaxFault} (loc : Location) (h : fault ≠ .unclosedBrace) :
    Mild (Parser.failAt loc fault : Parser α) := by
  rintro input error ⟨⟩
  exact h

theorem fail {fault : SyntaxFault} (h : fault ≠ .unclosedBrace) :
    Mild (Parser.fail fault : Parser α) := .bind .here fun loc => .failAt loc h

theorem failExpected (what : String) : Mild (Parser.failExpected what : Parser α) :=
  .bind .peek fun _ => .fail nofun

theorem eat (token : Token) : Mild (Parser.eat token) :=
  .bind .peek fun _ => .ite (.bind .advance fun _ => .pure true) (.pure false)

theorem expect (symbol : Symbol) (what : String) : Mild (Parser.expect symbol what) :=
  .bind .here fun loc => .bind .peek fun _ =>
    .ite (.bind .advance fun _ => .pure loc) (.failExpected what)

theorem expectName (what : String) : Mild (Parser.expectName what) := by
  refine .bind .peek fun found => ?_
  split
  · exact .bind .advance fun _ => .pure _
  · exact .fail nofun
  · exact .fail nofun

theorem expectText (what : String) : Mild (Parser.expectText what) := by
  refine .bind .peek fun found => ?_
  split
  · exact .bind .advance fun _ => .pure _
  · exact .fail nofun

end Mild

namespace Script

theorem terms_mild (n : Nat) : Mild (terms n) := by
  induction n with
  | zero => exact .failExpected _
  | succ n ih =>
    refine .bind .peek fun found => ?_
    split
    · refine .bind .advance fun _ => .bind .peek fun next => .bind .peekSecond fun second => ?_
      split
      · exact .bind .advance fun _ => .bind ih fun more => .pure _
      · exact .pure _
    · exact .fail nofun

theorem shorthand_mild : Mild shorthand :=
  .bind (.eat _) fun _ => .ite (.pure _) <| .bind (.eat _) fun _ => .ite (.pure _) (.pure _)

theorem selector_mild : Mild selector :=
  .bind .remaining fun n => .bind (terms_mild n) fun _ => .bind shorthand_mild fun _ => .pure _

variable {operand expr : Parser Expr}

theorem chainFrom_mild (h : Mild operand) (op? : Token → Option BinaryOp) (n : Nat) (left : Expr) :
    Mild (chainFrom operand op? n left) := by
  induction n generalizing left with
  | zero => exact .pure left
  | succ n ih =>
    refine .bind .peek fun found => ?_
    split
    · exact .pure left
    · exact .bind .advance fun _ => .bind h fun right => ih _

theorem chain_mild (h : Mild operand) (op? : Token → Option BinaryOp) : Mild (chain operand op?) :=
  .bind h fun left => .bind .remaining fun n => chainFrom_mild h op? n left

theorem comparison_mild (h : Mild operand) : Mild (comparison operand) := by
  refine .bind h fun left => .bind .peek fun found => ?_
  split
  · exact .pure left
  · refine .bind .advance fun _ => .bind h fun right => .bind .peek fun next => ?_
    split
    · exact .fail nofun
    · exact .pure _

theorem unary_mild (h : Mild operand) : Mild (unary operand) :=
  .bind (.of_ok fun _ => ⟨_, rfl⟩) fun _ => .bind h fun _ => .pure _

theorem key_mild : Mild key := by
  refine .bind .peek fun first => .bind .peekSecond fun second => ?_
  split
  · exact .bind .advance fun _ => .bind .advance fun _ => .pure _
  · exact .bind .advance fun _ => .bind .advance fun _ => .pure _
  · exact .pure _

theorem argsFrom_mild (h : Mild expr) (n : Nat) : Mild (argsFrom expr n) := by
  induction n with
  | zero => exact .failExpected _
  | succ n ih =>
    refine .bind key_mild fun key => .bind h fun value => .bind (.eat _) fun comma => ?_
    exact .ite (.bind ih fun more => .pure _) (.bind (.expect _ _) fun _ => .pure _)

theorem args_mild (h : Mild expr) : Mild (args expr) :=
  .bind (.eat _) fun _ => .ite (.pure []) (.bind .remaining fun n => argsFrom_mild h n)

theorem criteria_mild (list : List (Arg Expr)) : Mild (criteria list) := by
  induction list with
  | nil => exact .pure []
  | cons arg rest ih =>
    obtain ⟨key, value⟩ := arg
    cases key with
    | some key => exact .bind ih fun made => .pure _
    | none => exact Mild.failAt value.loc nofun

theorem worldForm_mild (h : Mild expr) (loc : Location) : Mild (worldForm expr loc) :=
  .bind h fun _ => .bind (.expect _ _) fun _ => .bind h fun _ => .bind (.expect _ _) fun _ =>
    .bind h fun _ => .bind (.expect _ _) fun _ => .pure _

theorem waypointForm_mild (loc : Location) : Mild (waypointForm loc) :=
  .bind (.expectText _) fun _ => .bind (.expect _ _) fun _ => .pure _

theorem nameForm_mild (h : Mild expr) (name : String) (loc : Location) :
    Mild (nameForm expr name loc) := by
  refine .bind (.eat _) fun _ => .ite ?_ (.pure _)
  refine .ite (worldForm_mild h loc) (.ite (waypointForm_mild loc) (.ite ?_ ?_))
  · exact .bind (args_mild h) fun list => .bind (criteria_mild list) fun _ => .pure _
  · exact .bind (args_mild h) fun list => .pure _

theorem primary_mild (h : Mild expr) : Mild (primary expr) := by
  refine .bind .here fun loc => .bind .peek fun found => ?_
  cases found with
  | none => exact .fail nofun
  | some token =>
    cases token with
    | int value => exact .bind .advance fun _ => .pure _
    | text value => exact .bind .advance fun _ => .pure _
    | name name => exact .bind .advance fun _ => nameForm_mild h name loc
    | axis => exact .bind selector_mild fun _ => .pure _
    | keyword word =>
      cases word with
      | trueWord => exact .bind .advance fun _ => .pure _
      | falseWord => exact .bind .advance fun _ => .pure _
      | _ => exact .fail nofun
    | symbol sign =>
      cases sign with
      | leftParen =>
        exact .bind .advance fun _ => .bind h fun _ => .bind (.expect _ _) fun _ => .pure _
      | _ => exact .fail nofun

theorem exprWithin_mild (n : Nat) : Mild (exprWithin n) := by
  induction n with
  | zero => exact .failExpected _
  | succ n ih =>
    have hproduct := chain_mild (unary_mild (primary_mild ih)) multiplicativeOp?
    have hsum := chain_mild hproduct additiveOp?
    exact chain_mild (chain_mild (comparison_mild hsum) conjunctionOp?) disjunctionOp?

theorem expr_mild : Mild Script.expr := .bind .remaining fun n => exprWithin_mild n

theorem paramsFrom_mild (n : Nat) (before : List Param) : Mild (paramsFrom n before) := by
  induction n generalizing before with
  | zero => exact .failExpected _
  | succ n ih =>
    refine .bind .here fun typeLoc => .bind (.expectName _) fun typeName => ?_
    split
    · exact .failAt typeLoc nofun
    · refine .bind .here fun loc => .bind (.expectName _) fun name => ?_
      exact .ite (.failAt loc nofun) (.bind (.eat _) fun _ => .ite (ih _) (.pure _))

theorem params_mild : Mild params :=
  .bind .peek fun _ => .ite (.pure []) (.bind .remaining fun n => paramsFrom_mild n [])

end Script

/-! ## Parsers that complain of the innermost brace -/

/-- From here the parser takes tokens in which all braces have their partners. If it complains of a
brace that is not closed, it is the innermost one of those that are open at the end. -/
structure NeatAt {α : Type} (p : Parser α) (input : TokenList) : Prop where
  closed : ∀ {rest : TokenList} {a : α}, p input = .ok (a, rest) →
    ∃ ts, Takes input ts rest ∧ Closed ts
  blames : ∀ {loc : Location}, p input = .error ⟨loc, .unclosedBrace⟩ →
    ∃ outer, openBraces [] input.tokens = some (loc :: outer)

def Neat {α : Type} (p : Parser α) : Prop := ∀ input, NeatAt p input

/-- What comes behind tokens in which all braces have their partners. -/
theorem NeatAt.behind {α : Type} {p q : Parser α} {input rest : TokenList} {ts : List Located}
    (h : NeatAt p rest) (hts : Takes input ts rest) (hclosed : Closed ts)
    (heq : q input = p rest) : NeatAt q input where
  closed hq := by
    obtain ⟨us, hus, hclosed'⟩ := h.closed (heq.symm.trans hq)
    exact ⟨ts ++ us, hts.append hus, hclosed.append hclosed'⟩
  blames hq := by
    obtain ⟨outer, hopen⟩ := h.blames (heq.symm.trans hq)
    rw [hts.tokens, hclosed.openBraces_append]
    exact ⟨outer, hopen⟩

theorem NeatAt.of_bind_error {α β : Type} {p : Parser α} {k : α → Parser β} {input : TokenList}
    {error : SyntaxError} (hp : NeatAt p input) (h : p input = .error error) :
    NeatAt (p >>= k) input where
  closed hk := by cases (Parser.bind_error h).symm.trans hk
  blames hk := by
    cases (Parser.bind_error h).symm.trans hk
    exact hp.blames h

namespace Neat

variable {α β : Type} {p : Parser α}

theorem of_mild (hp : Mild p) (hclosed : ∀ {input rest : TokenList} {a : α},
    p input = .ok (a, rest) → ∃ ts, Takes input ts rest ∧ Closed ts) : Neat p :=
  fun _ => ⟨hclosed, fun h => absurd rfl (hp _ _ h)⟩

theorem bind {k : α → Parser β} (hp : Neat p) (hk : ∀ a, Neat (k a)) : Neat (p >>= k) := by
  intro input
  cases hfirst : p input with
  | error error => exact (hp input).of_bind_error hfirst
  | ok pair =>
    obtain ⟨a, rest⟩ := pair
    obtain ⟨ts, hts, hclosed⟩ := (hp input).closed hfirst
    exact (hk a rest).behind hts hclosed (Parser.bind_ok hfirst)

theorem ite {c : Prop} [Decidable c] {q : Parser α} (hp : Neat p) (hq : Neat q) :
    Neat (if c then p else q) := by
  split
  · exact hp
  · exact hq

theorem pure (a : α) : Neat (pure a : Parser α) :=
  .of_mild (.pure a) fun h => by
    obtain ⟨-, rfl⟩ := Parser.pure_eq_ok h
    exact ⟨[], .nil _, rfl⟩

theorem failAt {fault : SyntaxFault} (loc : Location) (h : fault ≠ .unclosedBrace) :
    Neat (Parser.failAt loc fault : Parser α) := .of_mild (.failAt loc h) nofun

theorem fail {fault : SyntaxFault} (h : fault ≠ .unclosedBrace) :
    Neat (Parser.fail fault : Parser α) := .of_mild (.fail h) nofun

theorem here : Neat Parser.here :=
  .of_mild .here fun h => by
    obtain ⟨-, rfl⟩ := Parser.here_eq_ok h
    exact ⟨[], .nil _, rfl⟩

theorem peek : Neat Parser.peek :=
  .of_mild .peek fun h => by
    obtain ⟨-, rfl⟩ := Parser.peek_eq_ok h
    exact ⟨[], .nil _, rfl⟩

theorem remaining : Neat Parser.remaining :=
  .of_mild .remaining fun h => by
    cases h
    exact ⟨[], .nil _, rfl⟩

theorem eat {token : Token} (h : ∀ loc, Closed [⟨token, loc⟩]) : Neat (Parser.eat token) :=
  .of_mild (.eat token) fun {input rest found} heat => by
    cases found with
    | true =>
      obtain ⟨loc, htakes⟩ := Parser.eat_eq_true.1 heat
      exact ⟨_, htakes, h loc⟩
    | false =>
      obtain ⟨-, rfl⟩ := Parser.eat_eq_false.1 heat
      exact ⟨[], .nil _, rfl⟩

theorem expect (symbol : Symbol) (what : String)
    (h : ∀ loc, Closed [Grammar.mark symbol loc]) : Neat (Parser.expect symbol what) :=
  .of_mild (.expect symbol what) fun hexpect => ⟨_, Parser.expect_eq_ok.1 hexpect, h _⟩

theorem expectName (what : String) : Neat (Parser.expectName what) :=
  .of_mild (.expectName what) fun h => by
    obtain ⟨loc, htakes⟩ := Parser.expectName_eq_ok.1 h
    exact ⟨_, htakes, rfl⟩

theorem expectText (what : String) : Neat (Parser.expectText what) :=
  .of_mild (.expectText what) fun h => by
    obtain ⟨loc, htakes⟩ := Parser.expectText_eq_ok.1 h
    exact ⟨_, htakes, rfl⟩

end Neat

namespace Script

open Grammar (mark word closed_of_isPlain)

theorem expr_neat : Neat expr :=
  .of_mild expr_mild fun h => by
    obtain ⟨es, hes, hspells, -⟩ := Grammar.expr_sound _ _ _ h
    exact ⟨es, hes, closed_of_isPlain hspells.isPlain⟩

theorem args_neat : Neat (args expr) :=
  .of_mild (args_mild expr_mild) fun h => by
    obtain ⟨as, rp, has, hargs⟩ := Grammar.args_sound Grammar.expr_sound h
    exact ⟨_, has, (closed_of_isPlain hargs.isPlain).append rfl⟩

theorem params_neat : Neat params :=
  .of_mild params_mild fun h => by
    obtain ⟨ps, hps, hparams, -⟩ := Grammar.params_sound h
    exact ⟨ps, hps, closed_of_isPlain hparams.isPlain⟩

theorem declare_neat (made : Statement) (seen : List String) : Neat (declare made seen) := by
  unfold declare
  split
  · exact .pure seen
  · exact .ite (.failAt _ nofun) (.pure _)

variable {inner : Parser (List Statement)}

/-- A body leaves its own brace open where the text ends, unless one inside of it is open there. -/
theorem body_neat (hinner : Neat inner) : Neat (body inner) := by
  refine fun input => ⟨fun h => ?_, fun {place} h => ?_⟩
  · obtain ⟨loc, middle, hopen, h⟩ := Parser.bind_eq_ok h
    obtain ⟨list, afterList, hlist, h⟩ := Parser.bind_eq_ok h
    obtain ⟨ts, hts, hclosed⟩ := (hinner middle).closed hlist
    obtain ⟨found, same, hfound, h⟩ := Parser.bind_eq_ok h
    obtain ⟨-, rfl⟩ := Parser.peek_eq_ok hfound
    cases found with
    | none => cases h
    | some token =>
      obtain ⟨close, final, hclose, h⟩ := Parser.bind_eq_ok h
      obtain ⟨-, rfl⟩ := Parser.pure_eq_ok h
      exact ⟨_, (Parser.expect_eq_ok.1 hopen).append (hts.append (Parser.expect_eq_ok.1 hclose)),
        hclosed.braces loc close⟩
  · rcases Parser.bind_eq_error h with h | ⟨loc, middle, hopen, h⟩
    · exact absurd rfl (Mild.expect _ _ _ _ h)
    rw [(Parser.expect_eq_ok.1 hopen).tokens]
    change ∃ outer, openBraces [loc] middle.tokens = some (place :: outer)
    rcases Parser.bind_eq_error h with h | ⟨list, afterList, hlist, h⟩
    · obtain ⟨outer, hinside⟩ := (hinner middle).blames h
      exact ⟨outer ++ [loc], openBraces_below hinside [loc]⟩
    obtain ⟨ts, hts, hclosed⟩ := (hinner middle).closed hlist
    obtain h | ⟨found, same, hfound, h⟩ := Parser.bind_eq_error h
    · cases h
    obtain ⟨hhead, rfl⟩ := Parser.peek_eq_ok hfound
    cases found with
    | none =>
      cases h
      have hend := List.head?_eq_none_iff.1 (Option.map_eq_none_iff.1 hhead)
      rw [hts.tokens, hend, hclosed.openBraces_append]
      exact ⟨[], rfl⟩
    | some token =>
      rcases Parser.bind_eq_error h with h | ⟨close, final, -, h⟩
      · exact absurd rfl (Mild.expect _ _ _ _ h)
      · cases h

theorem define_neat (hinner : Neat inner) (loc : Location) : Neat (define inner loc) :=
  .bind (.expectName _) fun _ => .bind (.expect .leftParen _ fun _ => rfl) fun _ =>
    .bind params_neat fun _ => .bind (.expect .rightParen _ fun _ => rfl) fun _ =>
      .bind (body_neat hinner) fun _ => .pure _

theorem cond_neat (hinner : Neat inner) (loc : Location) (n : Nat) : Neat (cond inner loc n) := by
  induction n generalizing loc with
  | zero => exact .bind .peek fun _ => .fail nofun
  | succ n ih =>
    refine .bind (.expect .leftParen _ fun _ => rfl) fun _ => .bind expr_neat fun _ => ?_
    refine .bind (.expect .rightParen _ fun _ => rfl) fun _ => .bind (body_neat hinner) fun _ => ?_
    refine .bind (.eat fun _ => rfl) fun _ => .ite ?_ (.pure _)
    refine .bind .here fun nested => .bind (.eat fun _ => rfl) fun _ => .ite ?_ ?_
    · exact .bind (ih nested) fun _ => .pure _
    · exact .bind (body_neat hinner) fun _ => .pure _

theorem loop_neat (hinner : Neat inner) (loc : Location) : Neat (loop inner loc) :=
  .bind (.expect .leftParen _ fun _ => rfl) fun _ => .bind expr_neat fun _ =>
    .bind (.expect .rightParen _ fun _ => rfl) fun _ => .bind (body_neat hinner) fun _ => .pure _

theorem assertion_neat (loc : Location) : Neat (assertion loc) := by
  refine .bind (.expect .leftParen _ fun _ => rfl) fun _ => .bind expr_neat fun _ => ?_
  have hend (message : Option String) : Neat (do
      let _ ← Parser.expect .rightParen "')'"
      let _ ← Parser.expect .semicolon "';'"
      return .assert ‹Expr› message loc : Parser Statement) :=
    .bind (.expect .rightParen _ fun _ => rfl) fun _ =>
      .bind (.expect .semicolon _ fun _ => rfl) fun _ => .pure _
  refine .bind (.eat fun _ => rfl) fun _ => .ite ?_ (.bind (.pure none) hend)
  exact .bind (.bind (.expectText _) fun _ => .pure _) hend

theorem binding_neat (loc : Location) : Neat (binding loc) :=
  .bind (.expectName _) fun _ => .bind (.expect .assign _ fun _ => rfl) fun _ =>
    .bind expr_neat fun _ => .bind (.expect .semicolon _ fun _ => rfl) fun _ => .pure _

theorem named_neat (name : String) (loc : Location) : Neat (named name loc) := by
  refine .bind (.eat fun _ => rfl) fun _ => .ite ?_ (.bind (.eat fun _ => rfl) fun _ => .ite ?_ ?_)
  · exact .bind expr_neat fun _ => .bind (.expect .semicolon _ fun _ => rfl) fun _ => .pure _
  · exact .bind args_neat fun _ => .bind (.expect .semicolon _ fun _ => rfl) fun _ => .pure _
  · exact .bind .peek fun _ => .fail nofun

theorem repetition_neat (hinner : Neat inner) (loc : Location) : Neat (repetition inner loc) := by
  have hend (made : Expr → Body Statement → Statement) : Neat (do
      let test ← expr
      let _ ← Parser.expect .rightParen "')'"
      return made test (← body inner) : Parser Statement) :=
    .bind expr_neat fun _ => .bind (.expect .rightParen _ fun _ => rfl) fun _ =>
      .bind (body_neat hinner) fun _ => .pure _
  intro input
  cases hopen : Parser.expect .leftParen "'(' after repeat" input with
  | error error => exact .of_bind_error (Neat.expect .leftParen _ (fun _ => rfl) _) hopen
  | ok pair =>
    obtain ⟨lp, ts, stop⟩ := pair
    have htakes := Parser.expect_eq_ok.1 hopen
    have heq := @Grammar.repetition_eq inner loc lp stop ts
    have hinput : (⟨mark .leftParen lp :: ts, stop⟩ : TokenList) = input := htakes.input_eq.symm
    rw [hinput] at heq
    split at heq
    · next name place colon more =>
      have hname : Takes ⟨⟨.name name, place⟩ :: mark .colon colon :: more, stop⟩
          [⟨.name name, place⟩, mark .colon colon] ⟨more, stop⟩ := ⟨rfl, rfl⟩
      refine NeatAt.behind ?_ (htakes.append hname) rfl heq
      exact hend (fun test made => .repeatRange name (.int 0 place) test none made loc) _
    · refine NeatAt.behind ?_ htakes rfl heq
      refine Neat.fail ?_ _
      exact nofun
    · refine NeatAt.behind ?_ htakes rfl heq
      exact hend (fun test made => .repeatCount test made loc) _

theorem statement_neat (hinner : Neat inner) : Neat (statement inner) := by
  have hfail {fault : SyntaxFault} {input : TokenList}
      (heq : statement inner input = Parser.fail fault input) (hfault : fault ≠ .unclosedBrace) :
      NeatAt (statement inner) input := (Neat.fail hfault input).behind (.nil _) rfl heq
  rintro ⟨tokens, stop⟩
  rcases tokens with _ | ⟨⟨token, loc⟩, ts⟩
  · exact hfail rfl nofun
  · have htakes : Takes ⟨⟨token, loc⟩ :: ts, stop⟩ [⟨token, loc⟩] ⟨ts, stop⟩ := ⟨rfl, rfl⟩
    cases token with
    | symbol s =>
      cases s with
      | semicolon => exact (Neat.pure Statement.empty _).behind htakes rfl rfl
      | leftBrace =>
        have hblock : Neat (do return .block (← body inner) : Parser Statement) :=
          .bind (body_neat hinner) fun _ => .pure _
        exact (hblock _).behind (.nil _) rfl rfl
      | _ => exact hfail rfl nofun
    | keyword k =>
      cases k with
      | macroWord => exact (define_neat hinner loc _).behind htakes rfl rfl
      | ifWord => exact (cond_neat hinner loc ts.length _).behind htakes rfl rfl
      | repeatWord => exact (repetition_neat hinner loc _).behind htakes rfl rfl
      | whileWord => exact (loop_neat hinner loc _).behind htakes rfl rfl
      | assertWord => exact (assertion_neat loc _).behind htakes rfl rfl
      | letWord => exact (binding_neat loc _).behind htakes rfl rfl
      | _ => exact hfail rfl nofun
    | name name => exact (named_neat name loc _).behind htakes rfl rfl
    | _ => exact hfail rfl nofun

theorem statements_neat (n : Nat) (seen : List String) : Neat (statements n seen) := by
  induction n generalizing seen with
  | zero => exact .pure []
  | succ n ih =>
    refine .bind .peek fun found => ?_
    split
    · exact .pure []
    · exact .pure []
    · exact .bind (statement_neat (ih [])) fun first => .bind (declare_neat first seen) fun seen =>
        .bind (ih seen) fun _ => .pure _

theorem program_neat : Neat program := by
  refine .bind .remaining fun n => .bind (statements_neat n []) fun all => ?_
  refine .bind .peek fun found => ?_
  cases found with
  | none => exact .pure all
  | some token => exact .fail nofun

end Script

/-! ## Whole scripts -/

/-- One of the characters of the text is another in the words of a brace that is not closed. -/
def Differs (text : String) : Prop :=
  ∃ (n : Nat) (c : Char), text.toList[n]? = some c ∧
    SyntaxFault.unclosedBrace.message.toList[n]? ≠ some c

namespace Differs

variable {text : String}

theorem append (h : Differs text) (rest : String) : Differs (text ++ rest) := by
  obtain ⟨n, c, htext, hwords⟩ := h
  refine ⟨n, c, ?_, hwords⟩
  rw [String.toList_append, List.getElem?_append_left (List.getElem?_eq_some_iff.1 htext).1]
  exact htext

theorem ne (h : Differs text) : text ≠ SyntaxFault.unclosedBrace.message := by
  rintro rfl
  obtain ⟨n, c, htext, hwords⟩ := h
  exact hwords htext

end Differs

/-- No other fault is told in these words. -/
theorem SyntaxFault.eq_unclosedBrace {fault : SyntaxFault}
    (h : fault.message = unclosedBrace.message) : fault = .unclosedBrace := by
  have hbegin (n : Nat) (c : Char) {text : String} (htext : text.toList[n]? = some c)
      (hwords : unclosedBrace.message.toList[n]? ≠ some c) : Differs text := ⟨n, c, htext, hwords⟩
  have hone {text : String} (hdiffers : Differs text) (rest : String) :=
    (hdiffers.append rest).ne
  have htwo {text : String} (hdiffers : Differs text) (middle rest : String) :=
    ((hdiffers.append middle).append rest).ne
  have hthree {text : String} (hdiffers : Differs text) (a b c : String) :=
    (((hdiffers.append a).append b).append c).ne
  cases fault with
  | unclosedBrace => rfl
  | unexpectedCharacter c => exact absurd h (htwo (hbegin 2 'e' (by decide) (by decide)) _ _)
  | invalidNumber digits => exact absurd h (htwo (hbegin 0 'i' (by decide) (by decide)) _ _)
  | numberOutOfRange digits => exact absurd h (htwo (hbegin 0 'n' (by decide) (by decide)) _ _)
  | magnitudeOutOfRange digits => exact absurd h (htwo (hbegin 0 's' (by decide) (by decide)) _ _)
  | expected what found => exact absurd h (hthree (hbegin 0 'e' (by decide) (by decide)) _ _ _)
  | selectorAsName spelling what =>
    exact absurd h (hthree (hbegin 0 '\'' (by decide) (by decide)) _ _ _)
  | expectedCallOrAssign name found =>
    exact absurd h (hthree (hbegin 0 'e' (by decide) (by decide)) _ _ _)
  | unexpected found => exact absurd h (hone (hbegin 2 'e' (by decide) (by decide)) _)
  | macroRedeclared name => exact absurd h (htwo (hbegin 0 'm' (by decide) (by decide)) _ _)
  | unknownParameterType name => exact absurd h (htwo (hbegin 2 'k' (by decide) (by decide)) _ _)
  | duplicateParameter name => exact absurd h (htwo (hbegin 0 'd' (by decide) (by decide)) _ _)
  | afterSelector found => exact absurd h (htwo (hbegin 2 'e' (by decide) (by decide)) _ _)
  | _ => exact absurd h (by decide)

theorem parse_of_tokenize_error {source : String} {error : SyntaxError}
    (h : tokenize source = .error error) : parse source = .error error := by
  rw [parse, Parser.runOn, h]
  rfl

theorem parse_of_program_error {source : String} {list : TokenList} {error : SyntaxError}
    (hlist : tokenize source = .ok list) (h : Script.program list = .error error) :
    parse source = .error error := by
  rw [parse, Parser.runOn, hlist]
  change (Script.program list >>= fun made => pure made.1 : Except SyntaxError Program) = _
  rw [h]
  rfl

/-- A text is no script because of its characters or because of its tokens. -/
theorem parse_eq_error {source : String} {error : SyntaxError} :
    parse source = .error error ↔ tokenize source = .error error ∨
      ∃ list, tokenize source = .ok list ∧ Script.program list = .error error := by
  constructor
  · intro h
    cases htokens : tokenize source with
    | error e =>
      cases (parse_of_tokenize_error htokens).symm.trans h
      exact .inl rfl
    | ok list =>
      refine .inr ⟨list, rfl, ?_⟩
      cases hprogram : Script.program list with
      | error e =>
        cases (parse_of_program_error htokens hprogram).symm.trans h
        rfl
      | ok pair =>
        have hmade := Grammar.parse_eq_ok.2 ⟨list, htokens, (Grammar.program_eq_ok.1 hprogram).1⟩
        cases hmade.symm.trans h
  · rintro (h | ⟨list, hlist, h⟩)
    · exact parse_of_tokenize_error h
    · exact parse_of_program_error hlist h

/-- Where a script is refused for a brace that is not closed, this is the innermost of those that
are open at its end, and all closing braces have their partners. -/
theorem openBraces_of_unclosed {source : String} {error : SyntaxError}
    (h : parse source = .error error) (hfault : error.fault = .unclosedBrace) :
    ∃ list outer, tokenize source = .ok list ∧
      openBraces [] list.tokens = some (error.loc :: outer) := by
  obtain ⟨loc, fault⟩ := error
  subst hfault
  rcases parse_eq_error.1 h with h | ⟨list, hlist, h⟩
  · -- The lexer knows nothing of partners.
    obtain ⟨-, hfailed⟩ := Lexer.scan_course .start source.toList [] rfl
    obtain ⟨pieces, gap, rest, -, hoffence, -⟩ := hfailed _ h
    cases hoffence
  · obtain ⟨outer, hopen⟩ := (Script.program_neat list).blames h
    exact ⟨list, outer, hlist, hopen⟩

end BlockScript
