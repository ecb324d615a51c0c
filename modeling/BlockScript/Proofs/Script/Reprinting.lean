import BlockScript.Proofs.Script.Printer
import BlockScript.Proofs.Script.StatementCompleteness

/-!
# Reading what is printed

The tokens of a program that can be written spell that program again, wherever they are placed. Only
the places of its parts are new.
-/
namespace BlockScript
set_option autoImplicit false

namespace Grammar

/-! ## Tokens at places -/

/-- The tokens stand at some places. -/
def Placed (ts : List Located) (tokens : List Token) : Prop := ts.map Located.token = tokens

namespace Placed

variable {ts : List Located} {t : Token} {first second : List Token}

theorem nil_inv (h : Placed ts []) : ts = [] := List.map_eq_nil_iff.1 h

theorem cons_inv (h : Placed ts (t :: first)) :
    ∃ loc us, ts = ⟨t, loc⟩ :: us ∧ Placed us first := by
  obtain ⟨⟨token, loc⟩, us, rfl, rfl, hus⟩ := List.map_eq_cons_iff.1 h
  exact ⟨loc, us, rfl, hus⟩

theorem append_inv (h : Placed ts (first ++ second)) :
    ∃ us vs, ts = us ++ vs ∧ Placed us first ∧ Placed vs second := by
  obtain ⟨us, vs, rfl, hus, hvs⟩ := List.map_eq_append_iff.1 h
  exact ⟨us, vs, rfl, hus, hvs⟩

theorem singleton_inv (h : Placed ts [t]) : ∃ loc, ts = [⟨t, loc⟩] := by
  obtain ⟨loc, us, rfl, hus⟩ := h.cons_inv
  rw [hus.nil_inv]
  exact ⟨loc, rfl⟩

theorem inParens_append_inv (h : Placed ts (Tokens.inParens first ++ second)) :
    ∃ lp us rp vs, ts = mark .leftParen lp :: (us ++ mark .rightParen rp :: vs) ∧
      Placed us first ∧ Placed vs second := by
  obtain ⟨front, vs, rfl, hfront, hvs⟩ := h.append_inv
  obtain ⟨lp, inside, rfl, hinside⟩ := hfront.cons_inv
  obtain ⟨us, close, rfl, hus, hclose⟩ := hinside.append_inv
  obtain ⟨rp, rfl⟩ := hclose.singleton_inv
  exact ⟨lp, us, rp, vs, by simp, hus, hvs⟩

theorem inParens_inv (h : Placed ts (Tokens.inParens first)) :
    ∃ lp us rp, ts = mark .leftParen lp :: (us ++ [mark .rightParen rp]) ∧ Placed us first := by
  have happend : Placed ts (Tokens.inParens first ++ []) := by rwa [List.append_nil]
  obtain ⟨lp, us, rp, vs, rfl, hus, hvs⟩ := happend.inParens_append_inv
  rw [hvs.nil_inv]
  exact ⟨lp, us, rp, rfl, hus⟩

/-- A token, something in parentheses, and the rest. -/
theorem headed_inv (h : Placed ts (t :: (Tokens.inParens first ++ second))) :
    ∃ loc lp us rp vs, ts = ⟨t, loc⟩ :: mark .leftParen lp :: (us ++ mark .rightParen rp :: vs) ∧
      Placed us first ∧ Placed vs second := by
  obtain ⟨loc, after, rfl, hafter⟩ := h.cons_inv
  obtain ⟨lp, us, rp, vs, rfl, hus, hvs⟩ := hafter.inParens_append_inv
  exact ⟨loc, lp, us, rp, vs, rfl, hus, hvs⟩

theorem separated_one_inv (h : Placed ts (Tokens.separated [first])) : Placed ts first := by
  rwa [Tokens.separated, List.isEmpty_nil, if_pos rfl, List.append_nil] at h

theorem separated_cons_inv {rest : List (List Token)}
    (h : Placed ts (Tokens.separated (first :: second :: rest))) :
    ∃ us comma vs, ts = us ++ mark .comma comma :: vs ∧ Placed us first ∧
      Placed vs (Tokens.separated (second :: rest)) := by
  obtain ⟨us, after, rfl, hus, hafter⟩ := append_inv h
  obtain ⟨comma, vs, rfl, hvs⟩ := cons_inv hafter
  exact ⟨us, comma, vs, rfl, hus, hvs⟩

end Placed

/-! ## Levels -/

/-- What stands at one level stands at the loosest one. -/
theorem Spells.loosest {ts : List Located} {level : Level} {e : Expr}
    (h : Spells ts (.expr level e)) : Spells ts (.expr .disjunction e) := by
  have hcomparison : Spells ts (.expr .comparison e) → Spells ts (.expr .disjunction e) :=
    fun h => .lift nofun (.lift nofun h)
  have hproduct : Spells ts (.expr .product e) → Spells ts (.expr .disjunction e) :=
    fun h => hcomparison (.lift nofun (.lift nofun h))
  cases level with
  | disjunction => exact h
  | conjunction => exact .lift nofun h
  | comparison => exact hcomparison h
  | sum => exact hcomparison (.lift nofun h)
  | product => exact hproduct h
  | unary => exact hproduct (.lift nofun h)
  | primary => exact hproduct (.lift nofun (.lift nofun h))

/-- What stands at the tightest level stands at every level. -/
theorem Spells.at_level {ts : List Located} {e : Expr} (h : Spells ts (.expr .primary e))
    (level : Level) : Spells ts (.expr level e) := by
  have hunary : Spells ts (.expr .unary e) := .lift nofun h
  have hsum : Spells ts (.expr .sum e) := .lift nofun (.lift nofun hunary)
  cases level with
  | primary => exact h
  | unary => exact hunary
  | product => exact .lift nofun hunary
  | sum => exact hsum
  | comparison => exact .lift nofun hsum
  | conjunction => exact .lift nofun (.lift nofun hsum)
  | disjunction => exact h.loosest

/-! ## Selectors and keys -/

theorem terms_placed {terms : List Term} (hne : terms ≠ []) {ts : List Located}
    (h : Placed ts (Tokens.ofTerms terms)) : Terms ts terms := by
  induction terms generalizing ts with
  | nil => exact absurd rfl hne
  | cons term rest ih =>
    cases rest with
    | nil =>
      obtain ⟨loc, rfl⟩ := h.singleton_inv
      exact .one term.axis (some term.magnitude) term.key loc
    | cons next more =>
      obtain ⟨loc, after, rfl, hafter⟩ := Placed.cons_inv h
      obtain ⟨plus, us, rfl, hus⟩ := hafter.cons_inv
      exact .more term.axis (some term.magnitude) term.key loc plus
        (ih (List.cons_ne_nil _ _) hus)

theorem keyToken_of_readsAs {key : String} {t : Token} (h : ReadsAs key [t]) :
    Tokens.keyToken key = t := by
  obtain ⟨⟨tokens, stop⟩, hlist, htokens⟩ := h
  obtain ⟨loc, rfl⟩ := Placed.singleton_inv htokens
  rw [Tokens.keyToken, hlist]

theorem key_placed {key : Option String} (hkey : ∀ k ∈ key, IsKey k) {ts : List Located}
    (h : Placed ts (Tokens.ofKey key)) : Key ts key := by
  cases key with
  | none =>
    rw [Placed.nil_inv h]
    exact .positional
  | some key =>
    obtain ⟨loc, us, rfl, hus⟩ := Placed.cons_inv h
    obtain ⟨colon, rfl⟩ := hus.singleton_inv
    rcases hkey key rfl with hname | ⟨axis, magnitude, haxis⟩
    · rw [keyToken_of_readsAs hname]
      exact .name key loc colon
    · rw [keyToken_of_readsAs haxis]
      exact .axis axis magnitude key loc colon

/-! ## Expressions -/

/-- The tokens spell the expression, up to the places of its parts. -/
def Respells (ts : List Located) (level : Level) (e : Expr) : Prop :=
  ∃ e', Spells ts (.expr level e') ∧ Unplaced.expr e' = Unplaced.expr e

/-- Tokens in parentheses. -/
theorem respells_inParens {ts : List Located} {tokens : List Token}
    (h : Placed ts (Tokens.inParens tokens)) {e : Expr}
    (hinside : ∀ us, Placed us tokens → Respells us .disjunction e) : Respells ts .primary e := by
  obtain ⟨lp, us, rp, rfl, hus⟩ := h.inParens_inv
  obtain ⟨e', hspells, hsame⟩ := hinside us hus
  exact ⟨e', .parens lp rp hspells, hsame⟩

theorem not_joined_inParens {ts us : List Located} {tokens : List Token}
    (h : Placed ts (Tokens.inParens tokens)) (s : Symbol) : ¬ Joined ts s us := by
  rintro ⟨haxis, -⟩
  obtain ⟨lp, inside, rp, rfl, -⟩ := h.inParens_inv
  rw [← List.cons_append, endsInAxis_append (List.cons_ne_nil _ _)] at haxis
  cases haxis

/-- The first of some arguments, with those behind it. -/
theorem args_cons_placed {ts : List Located} {key : Option String} {e : Expr}
    {rest : List (List Token)} {Same : List (Arg Expr) → Prop} (hkey : ∀ k ∈ key, IsKey k)
    (h : Placed ts (Tokens.separated ((Tokens.ofKey key ++ Tokens.ofExpr e) :: rest)))
    (hexpr : ∀ us, Placed us (Tokens.ofExpr e) → Respells us .disjunction e)
    (hrest : ∀ us, Placed us (Tokens.separated rest) →
      ∃ list, Spells us (.args list) ∧ (list = [] ↔ rest = []) ∧ Same list) :
    ∃ e' list, Spells ts (.args (⟨key, e'⟩ :: list)) ∧ Unplaced.expr e' = Unplaced.expr e ∧
      Same list := by
  cases rest with
  | nil =>
    obtain ⟨ks, es, rfl, hks, hes⟩ := h.separated_one_inv.append_inv
    obtain ⟨e', hspells, hsame⟩ := hexpr es hes
    obtain ⟨list, -, hnil, hlist⟩ := hrest [] rfl
    obtain rfl : list = [] := hnil.2 rfl
    exact ⟨e', [], .lastArg (key_placed hkey hks) hspells, hsame, hlist⟩
  | cons second rest =>
    obtain ⟨us, comma, vs, rfl, hfirst, hvs⟩ := h.separated_cons_inv
    obtain ⟨ks, es, rfl, hks, hes⟩ := hfirst.append_inv
    obtain ⟨e', hspells, hsame⟩ := hexpr es hes
    obtain ⟨list, hrests, hnil, hlist⟩ := hrest vs hvs
    have hne : list ≠ [] := mt hnil.1 (List.cons_ne_nil _ _)
    exact ⟨e', list, .moreArgs comma (key_placed hkey hks) hspells hne hrests, hsame, hlist⟩

mutual

theorem expr_placed : ∀ e : Expr, WellFormed.expr e → ∀ ts, Placed ts (Tokens.ofExpr e) →
    Respells ts .disjunction e
  | .int value _, _, ts, h => by
    obtain ⟨loc, rfl⟩ := h.singleton_inv
    exact ⟨_, (Spells.int value loc).loosest, rfl⟩
  | .text value _, _, ts, h => by
    obtain ⟨loc, rfl⟩ := h.singleton_inv
    exact ⟨_, (Spells.text value loc).loosest, rfl⟩
  | .bool value _, _, ts, h => by
    obtain ⟨loc, rfl⟩ := h.singleton_inv
    cases value with
    | true => exact ⟨_, (Spells.trueWord loc).loosest, rfl⟩
    | false => exact ⟨_, (Spells.falseWord loc).loosest, rfl⟩
  | .ident name _, _, ts, h => by
    obtain ⟨loc, rfl⟩ := h.singleton_inv
    exact ⟨_, (Spells.ident name loc).loosest, rfl⟩
  | .selector value _, hwell, ts, h => by
    have hterms := terms_placed hwell.1 h
    obtain ⟨first, us, rfl⟩ := List.exists_cons_of_ne_nil hterms.ne_nil
    exact ⟨_, (Spells.selector (.plain hterms)).loosest, rfl⟩
  | .world x y z _, ⟨hx, hy, hz⟩, ts, h => by
    obtain ⟨loc, after, rfl, hafter⟩ := Placed.cons_inv h
    obtain ⟨lp, inside, rp, rfl, hinside⟩ := hafter.inParens_inv
    obtain ⟨xs, first, more, rfl, hxs, hmore⟩ := hinside.separated_cons_inv
    obtain ⟨ys, second, zs, rfl, hys, hzs⟩ := hmore.separated_cons_inv
    obtain ⟨x', hspellsx, hsamex⟩ := expr_placed x hx xs hxs
    obtain ⟨y', hspellsy, hsamey⟩ := expr_placed y hy ys hys
    obtain ⟨z', hspellsz, hsamez⟩ := expr_placed z hz zs hzs.separated_one_inv
    have hspells := Spells.world loc lp first second rp hspellsx hspellsy hspellsz
    refine ⟨.world x' y' z' loc, ?_, ?_⟩
    · simpa using hspells.loosest
    · rw [Unplaced.expr, Unplaced.expr, hsamex, hsamey, hsamez]
  | .waypoint name _, _, ts, h => by
    obtain ⟨loc, after, rfl, hafter⟩ := Placed.cons_inv h
    obtain ⟨lp, inside, rp, rfl, hinside⟩ := hafter.inParens_inv
    obtain ⟨place, rfl⟩ := hinside.singleton_inv
    exact ⟨_, (Spells.waypoint name loc lp place rp).loosest, rfl⟩
  | .query criteria _, hwell, ts, h => by
    obtain ⟨loc, after, rfl, hafter⟩ := Placed.cons_inv h
    obtain ⟨lp, inside, rp, rfl, hinside⟩ := hafter.inParens_inv
    obtain ⟨_, hspells, -, criteria', rfl, hsame⟩ := criteria_placed criteria hwell inside hinside
    exact ⟨_, (Spells.query loc lp rp hspells).loosest, congrArg (Expr.query · default) hsame⟩
  | .predicate name args _, ⟨⟨_, hform⟩, hargs⟩, ts, h => by
    obtain ⟨loc, after, rfl, hafter⟩ := Placed.cons_inv h
    obtain ⟨lp, inside, rp, rfl, hinside⟩ := hafter.inParens_inv
    obtain ⟨args', hspells, -, hsame⟩ := args_placed args hargs inside hinside
    exact ⟨_, (Spells.predicate name loc lp rp hform hspells).loosest,
      congrArg (Expr.predicate name · default) hsame⟩
  | .unary op operand _, hwell, ts, h => by
    obtain ⟨loc, after, rfl, hafter⟩ := Placed.cons_inv h
    obtain ⟨e', hspells, hsame⟩ := respells_inParens hafter (expr_placed operand hwell)
    exact ⟨_, (Spells.unary op loc (hspells.at_level .unary)).loosest,
      congrArg (Expr.unary op · default) hsame⟩
  | .binary op left right, ⟨hleft, hright⟩, ts, h => by
    obtain ⟨ls, after, rfl, hls, hafter⟩ := Placed.append_inv h
    obtain ⟨loc, rs, rfl, hrs⟩ := hafter.cons_inv
    obtain ⟨l, hl, hsamel⟩ := respells_inParens hls (expr_placed left hleft)
    obtain ⟨r, hr, hsamer⟩ := respells_inParens hrs (expr_placed right hright)
    have hspells := Spells.binary op loc (hl.at_level (leftLevel op))
      (hr.at_level (levelOf op).tighter) (not_joined_inParens hls _)
    refine ⟨_, hspells.loosest, ?_⟩
    rw [Unplaced.expr, Unplaced.expr, hsamel, hsamer]

theorem criteria_placed : ∀ criteria : List (String × Expr), WellFormed.criteria criteria →
    ∀ ts, Placed ts (Tokens.separated (Tokens.ofCriteria criteria)) →
      ∃ list, Spells ts (.args list) ∧ (list = [] ↔ Tokens.ofCriteria criteria = []) ∧
        ∃ criteria', list = criteria'.map (fun (key, e) => ⟨some key, e⟩) ∧
          Unplaced.criteria criteria' = Unplaced.criteria criteria
  | [], _, ts, h => by
    rw [Placed.nil_inv h]
    exact ⟨[], .noArgs, by simp [Tokens.ofCriteria], [], rfl, rfl⟩
  | (key, e) :: rest, ⟨hkey, he, hrest⟩, ts, h => by
    obtain ⟨e', list, hspells, hsame, rest', rfl, hlist⟩ :=
      args_cons_placed (by simpa using hkey) h (expr_placed e he) (criteria_placed rest hrest)
    refine ⟨_, hspells, by simp [Tokens.ofCriteria], (key, e') :: rest', rfl, ?_⟩
    rw [Unplaced.criteria, Unplaced.criteria, hsame, hlist]

theorem args_placed : ∀ args : List (Arg Expr), WellFormed.args args →
    ∀ ts, Placed ts (Tokens.separated (Tokens.ofArgs args)) →
      ∃ args', Spells ts (.args args') ∧ (args' = [] ↔ Tokens.ofArgs args = []) ∧
        Unplaced.args args' = Unplaced.args args
  | [], _, ts, h => by
    rw [Placed.nil_inv h]
    exact ⟨[], .noArgs, by simp [Tokens.ofArgs], rfl⟩
  | ⟨key, e⟩ :: rest, ⟨hkey, he, hrest⟩, ts, h => by
    obtain ⟨e', list, hspells, hsame, hlist⟩ :=
      args_cons_placed hkey h (expr_placed e he) (args_placed rest hrest)
    refine ⟨_, hspells, by simp [Tokens.ofArgs], ?_⟩
    rw [Unplaced.args, Unplaced.args, hsame, hlist]

end

/-! ## Statements -/

theorem params_placed {params : List Param} {ts : List Located}
    (h : Placed ts (Tokens.ofParams params)) : Params ts params := by
  induction params generalizing ts with
  | nil =>
    rw [Placed.nil_inv h]
    exact .none
  | cons param rest ih =>
    cases rest with
    | nil =>
      obtain ⟨typeLoc, us, rfl, hus⟩ := (Placed.separated_one_inv h).cons_inv
      obtain ⟨loc, rfl⟩ := hus.singleton_inv
      exact .last param.type param.name typeLoc loc
    | cons next more =>
      obtain ⟨front, comma, vs, rfl, hfront, hvs⟩ := Placed.separated_cons_inv h
      obtain ⟨typeLoc, us, rfl, hus⟩ := hfront.cons_inv
      obtain ⟨loc, rfl⟩ := hus.singleton_inv
      exact .more param.type param.name typeLoc loc comma (List.cons_ne_nil _ _) (ih hvs)

theorem unplaced_statements_eq_map (list : List Statement) :
    Unplaced.statements list = list.map Unplaced.statement := by
  induction list with
  | nil => rfl
  | cons first rest ih => rw [Unplaced.statements, List.map_cons, ih]

theorem macro?_unplaced (s : Statement) :
    (Unplaced.statement s).macro?.map Macro.name = s.macro?.map Macro.name := by
  cases s <;> rfl

theorem macroNames_unplaced (list : List Statement) :
    macroNames (Unplaced.statements list) = macroNames list := by
  rw [macroNames, macroNames, List.map_filterMap, List.map_filterMap, unplaced_statements_eq_map,
    List.filterMap_map]
  exact congrArg (list.filterMap ·) (funext macro?_unplaced)

theorem nodup_macroNames {list other : List Statement}
    (h : Unplaced.statements list = Unplaced.statements other) (hnames : (macroNames other).Nodup) :
    (macroNames list).Nodup := by
  rwa [← macroNames_unplaced, h, macroNames_unplaced]

mutual

theorem statement_placed : ∀ s : Statement, WellFormed.statement s →
    ∀ ts, Placed ts (Tokens.ofStatement s) →
      ∃ s', Writes ts (.statement s') ∧ Unplaced.statement s' = Unplaced.statement s
  | .define name params body _, ⟨_, hparams, hbody⟩, ts, h => by
    obtain ⟨loc, us, rfl, hus⟩ := Placed.cons_inv h
    obtain ⟨place, vs, rfl, hvs⟩ := hus.cons_inv
    obtain ⟨lp, ps, rp, bs, rfl, hps, hbs⟩ := hvs.inParens_append_inv
    obtain ⟨body', hwrites, hsame⟩ := body_placed body hbody bs hbs
    exact ⟨_, .define name loc place lp rp (params_placed hps) hparams.2 hwrites,
      congrArg (Statement.define name params · default) hsame⟩
  | .cond test yes no _, ⟨htest, hyes, hno⟩, ts, h => by
    obtain ⟨loc, lp, es, rp, after, rfl, hes, hafter⟩ := Placed.headed_inv h
    obtain ⟨bs, as, rfl, hbs, has⟩ := hafter.append_inv
    obtain ⟨test', hspells, hsame⟩ := expr_placed test htest es hes
    obtain ⟨yes', hwrites, hsameYes⟩ := body_placed yes hyes bs hbs
    cases no with
    | none =>
      rw [Placed.nil_inv has, List.append_nil]
      refine ⟨_, .cond loc lp rp hspells hwrites, ?_⟩
      rw [Unplaced.statement, Unplaced.statement, hsame, hsameYes]
    | some no =>
      obtain ⟨place, os, rfl, hos⟩ := Placed.cons_inv has
      obtain ⟨no', hwritesNo, hsameNo⟩ := body_placed no hno os hos
      refine ⟨_, .condElse loc lp rp place hspells hwrites hwritesNo, ?_⟩
      simp only [Unplaced.statement, Unplaced.alternative, hsame, hsameYes, hsameNo]
  | .repeatCount count body _, ⟨hcount, hbody⟩, ts, h => by
    obtain ⟨loc, lp, es, rp, bs, rfl, hes, hbs⟩ := Placed.headed_inv h
    obtain ⟨count', hspells, hsame⟩ := expr_placed count hcount es hes
    obtain ⟨body', hwrites, hsameBody⟩ := body_placed body hbody bs hbs
    refine ⟨_, .repeatCount loc lp rp hspells hwrites, ?_⟩
    rw [Unplaced.statement, Unplaced.statement, hsame, hsameBody]
  | .repeatRange name start stop step body _, ⟨_, hstart, hstop, hstep, hbody⟩, ts, h => by
    obtain ⟨loc, lp, inside, rp, bs, rfl, hinside, hbs⟩ := Placed.headed_inv h
    obtain ⟨place, vs, rfl, hvs⟩ := hinside.cons_inv
    obtain ⟨colon, es, rfl, hes⟩ := hvs.cons_inv
    obtain ⟨stop', hspells, hsame⟩ := expr_placed stop hstop es hes
    obtain ⟨body', hwrites, hsameBody⟩ := body_placed body hbody bs hbs
    obtain ⟨origin, rfl⟩ := hstart
    subst hstep
    refine ⟨_, .repeatRange name loc lp place colon rp hspells hwrites, ?_⟩
    rw [Unplaced.statement, Unplaced.statement, hsame, hsameBody]
    rfl
  | .loop test body _, ⟨htest, hbody⟩, ts, h => by
    obtain ⟨loc, lp, es, rp, bs, rfl, hes, hbs⟩ := Placed.headed_inv h
    obtain ⟨test', hspells, hsame⟩ := expr_placed test htest es hes
    obtain ⟨body', hwrites, hsameBody⟩ := body_placed body hbody bs hbs
    refine ⟨_, .loop loc lp rp hspells hwrites, ?_⟩
    rw [Unplaced.statement, Unplaced.statement, hsame, hsameBody]
  | .assert test message _, htest, ts, h => by
    obtain ⟨loc, lp, inside, rp, vs, rfl, hinside, hvs⟩ := Placed.headed_inv h
    obtain ⟨semicolon, rfl⟩ := hvs.singleton_inv
    obtain ⟨es, ms, rfl, hes, hms⟩ := hinside.append_inv
    obtain ⟨test', hspells, hsame⟩ := expr_placed test htest es hes
    have hsameAssert := congrArg (Statement.assert · message default) hsame
    cases message with
    | none =>
      rw [Placed.nil_inv hms, List.append_nil]
      exact ⟨_, .assert loc lp rp semicolon hspells, hsameAssert⟩
    | some message =>
      obtain ⟨comma, ps, rfl, hps⟩ := Placed.cons_inv hms
      obtain ⟨place, rfl⟩ := hps.singleton_inv
      rw [List.append_assoc]
      exact ⟨_, .assertMessage message loc lp comma place rp semicolon hspells, hsameAssert⟩
  | .bind name value _, ⟨_, hvalue⟩, ts, h => by
    obtain ⟨loc, us, rfl, hus⟩ := Placed.cons_inv h
    obtain ⟨place, vs, rfl, hvs⟩ := hus.cons_inv
    obtain ⟨assign, after, rfl, hafter⟩ := hvs.cons_inv
    obtain ⟨es, last, rfl, hes, hlast⟩ := hafter.append_inv
    obtain ⟨semicolon, rfl⟩ := hlast.singleton_inv
    obtain ⟨value', hspells, hsame⟩ := expr_placed value hvalue es hes
    exact ⟨_, .bind name loc place assign semicolon hspells,
      congrArg (Statement.bind name · default) hsame⟩
  | .assign name value _, ⟨_, hvalue⟩, ts, h => by
    obtain ⟨loc, us, rfl, hus⟩ := Placed.cons_inv h
    obtain ⟨assign, after, rfl, hafter⟩ := hus.cons_inv
    obtain ⟨es, last, rfl, hes, hlast⟩ := hafter.append_inv
    obtain ⟨semicolon, rfl⟩ := hlast.singleton_inv
    obtain ⟨value', hspells, hsame⟩ := expr_placed value hvalue es hes
    exact ⟨_, .assign name loc assign semicolon hspells,
      congrArg (Statement.assign name · default) hsame⟩
  | .command name args _, ⟨_, hargs⟩, ts, h => by
    obtain ⟨loc, lp, as, rp, vs, rfl, has, hvs⟩ := Placed.headed_inv h
    obtain ⟨semicolon, rfl⟩ := hvs.singleton_inv
    obtain ⟨args', hspells, -, hsame⟩ := args_placed args hargs as has
    exact ⟨_, .command name loc lp rp semicolon hspells,
      congrArg (Statement.command name · default) hsame⟩
  | .block body, hbody, ts, h => by
    obtain ⟨body', hwrites, hsame⟩ := body_placed body hbody ts h
    exact ⟨_, .block hwrites, congrArg Statement.block hsame⟩
  | .empty, _, ts, h => by
    obtain ⟨loc, rfl⟩ := Placed.singleton_inv h
    exact ⟨_, .empty loc, rfl⟩

theorem body_placed : ∀ b : Body Statement, WellFormed.body b →
    ∀ ts, Placed ts (Tokens.ofBody b) →
      ∃ b', Writes ts (.body b') ∧ Unplaced.body b' = Unplaced.body b
  | ⟨list, _⟩, ⟨hlist, hnames⟩, ts, h => by
    obtain ⟨loc, us, rfl, hus⟩ := Placed.cons_inv h
    obtain ⟨ss, last, rfl, hss, hlast⟩ := hus.append_inv
    obtain ⟨close, rfl⟩ := hlast.singleton_inv
    obtain ⟨list', hwrites, hsame⟩ := statements_placed list hlist ss hss
    exact ⟨_, .body loc close hwrites (nodup_macroNames hsame hnames),
      congrArg (Body.mk · default) hsame⟩

theorem statements_placed : ∀ list : List Statement, WellFormed.statements list →
    ∀ ts, Placed ts (Tokens.ofStatements list) →
      ∃ list', Writes ts (.list list') ∧ Unplaced.statements list' = Unplaced.statements list
  | [], _, ts, h => by
    rw [Placed.nil_inv h]
    exact ⟨[], .nil, rfl⟩
  | first :: rest, ⟨hfirst, hrest⟩, ts, h => by
    obtain ⟨fs, rs, rfl, hfs, hrs⟩ := Placed.append_inv h
    obtain ⟨first', hwrites, hsame⟩ := statement_placed first hfirst fs hfs
    obtain ⟨rest', hwritesRest, hsameRest⟩ := statements_placed rest hrest rs hrs
    refine ⟨_, .cons hwrites hwritesRest, ?_⟩
    rw [Unplaced.statements, Unplaced.statements, hsame, hsameRest]

end

end Grammar

end BlockScript
