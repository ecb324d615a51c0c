import BlockScript.CommandLine.Output
import BlockScript.Proofs.Run.Coverage
import BlockScript.Proofs.Script.StatementCompleteness
import BlockScript.Proofs.Token.Lossless

/-!
# Calls in the order of the text

The calls of a program can be read off its tokens: a name directly before an opening parenthesis is
a call, unless it is the name of a declaration or opens one of the forms that are no predicates. The
token before the name tells where the name stands. The walk over the program finds just these calls,
each once and in the order of the text, so the counts of a script count them all and a check before
the run leaves none out.
-/
namespace BlockScript
set_option autoImplicit false

namespace Grammar

/-! ## Calls among tokens -/

/-- Where a name may stand. -/
inductive Standing where
  | statement
  | declaration
  | expression
deriving DecidableEq

/-- Where the token behind a token stands: behind a semicolon or a brace begins a statement. -/
def Standing.behind : Token → Standing
  | .symbol .semicolon => .statement
  | .symbol .leftBrace => .statement
  | .symbol .rightBrace => .statement
  | .keyword .macroWord => .declaration
  | _ => .expression

/-- Where the token behind a list of tokens stands, if the first of them stands at a place. -/
def Standing.after : Standing → List Located → Standing
  | place, [] => place
  | _, t :: rest => (behind t.token).after rest

/-- A call stands in the tokens of a program: its name, at its place, directly before an opening
parenthesis. It is a command where a statement begins, and a predicate in an expression. -/
inductive StandsIn (tokens : List Located) : Call → Prop where
  | command {before after : List Located} {name : String} {loc lp : Location}
    (htokens : tokens = before ++ ⟨.name name, loc⟩ :: mark .leftParen lp :: after)
    (hplace : Standing.statement.after before = .statement) : StandsIn tokens ⟨name, loc, false⟩
  | predicate {before after : List Located} {name : String} {loc lp : Location}
    (htokens : tokens = before ++ ⟨.name name, loc⟩ :: mark .leftParen lp :: after)
    (hplace : Standing.statement.after before = .expression) (hname : name ∉ formNames) :
    StandsIn tokens ⟨name, loc, true⟩

/-- An opening parenthesis comes first. -/
def opensParen (ts : List Located) : Bool :=
  ts.head?.any fun t => t.token = .symbol .leftParen

/-- What a name before an opening parenthesis calls. -/
def Standing.call? (place : Standing) (name : String) (loc : Location) : Option Call :=
  match place with
  | statement => some ⟨name, loc, false⟩
  | declaration => none
  | expression => if name ∈ formNames then none else some ⟨name, loc, true⟩

/-- The call that a token makes before the tokens behind it. -/
def callAt (place : Standing) (t : Located) (rest : List Located) : Option Call :=
  match t.token with
  | .name name => if opensParen rest then place.call? name t.loc else none
  | _ => none

/-- The calls among tokens of which the first stands at a place. -/
def callsFrom : Standing → List Located → List Call
  | _, [] => []
  | place, t :: rest => (callAt place t rest).toList ++ callsFrom (.behind t.token) rest

variable {ts us rest : List Located} {place : Standing} {call : Call}

theorem Standing.loc_of_call? {name : String} {loc : Location}
    (h : place.call? name loc = some call) : call.loc = loc := by
  unfold call? at h
  split at h
  · cases h
    rfl
  · cases h
  · split at h
    · cases h
    · cases h
      rfl

theorem callAt_eq_some_iff {t : Located} :
    callAt place t rest = some call ↔ ∃ name loc lp after, t = ⟨.name name, loc⟩ ∧
      rest = mark .leftParen lp :: after ∧ place.call? name loc = some call := by
  obtain ⟨token, loc⟩ := t
  constructor
  · intro h
    unfold callAt at h
    split at h
    · next name htoken =>
      cases htoken
      split at h
      · next hopens =>
        rcases rest with _ | ⟨⟨token, lp⟩, after⟩
        · cases hopens
        · obtain rfl : token = .symbol .leftParen := of_decide_eq_true hopens
          exact ⟨name, loc, lp, after, rfl, rfl, h⟩
      · cases h
    · cases h
  · rintro ⟨name, loc', lp, after, heq, rfl, hcall⟩
    cases heq
    exact hcall

/-- A call takes its place from the token that names it. -/
theorem callsFrom_locs_sublist (place : Standing) (tokens : List Located) :
    ((callsFrom place tokens).map Call.loc).Sublist (tokens.map Located.loc) := by
  induction tokens generalizing place with
  | nil => exact .slnil
  | cons t rest ih =>
    rw [callsFrom, List.map_append]
    cases hcall : callAt place t rest with
    | none => exact (ih _).cons t.loc
    | some call =>
      obtain ⟨name, loc, lp, after, rfl, -, hname⟩ := callAt_eq_some_iff.1 hcall
      rw [Option.toList_some, List.map_singleton, Standing.loc_of_call? hname]
      exact (ih _).cons_cons loc

/-- A call is found at the tokens that make it, by where the tokens before them lead. -/
theorem mem_callsFrom_iff {tokens : List Located} :
    call ∈ callsFrom place tokens ↔ ∃ before name loc lp after,
      tokens = before ++ ⟨.name name, loc⟩ :: mark .leftParen lp :: after ∧
        (place.after before).call? name loc = some call := by
  induction tokens generalizing place with
  | nil =>
    constructor
    · exact fun h => absurd h List.not_mem_nil
    · rintro ⟨before, name, loc, lp, after, htokens, -⟩
      exact absurd htokens.symm (List.append_ne_nil_of_right_ne_nil _ (List.cons_ne_nil _ _))
  | cons t rest ih =>
    rw [callsFrom, List.mem_append, Option.mem_toList, callAt_eq_some_iff, ih]
    constructor
    · rintro (⟨name, loc, lp, after, rfl, rfl, hcall⟩ | ⟨before, name, loc, lp, after, rfl, hcall⟩)
      · exact ⟨[], name, loc, lp, after, rfl, hcall⟩
      · exact ⟨t :: before, name, loc, lp, after, rfl, hcall⟩
    · rintro ⟨before, name, loc, lp, after, htokens, hcall⟩
      cases before with
      | nil =>
        cases htokens
        exact .inl ⟨name, loc, lp, after, rfl, rfl, hcall⟩
      | cons t' before =>
        cases htokens
        exact .inr ⟨before, name, loc, lp, after, rfl, hcall⟩

theorem mem_callsFrom_iff_standsIn {tokens : List Located} :
    call ∈ callsFrom .statement tokens ↔ StandsIn tokens call := by
  rw [mem_callsFrom_iff]
  constructor
  · rintro ⟨before, name, loc, lp, after, htokens, hcall⟩
    unfold Standing.call? at hcall
    split at hcall
    · next hplace =>
      cases hcall
      exact .command htokens hplace
    · cases hcall
    · next hplace =>
      split at hcall
      · cases hcall
      · next hname =>
        cases hcall
        exact .predicate htokens hplace hname
  · rintro (⟨htokens, hplace⟩ | ⟨htokens, hplace, hname⟩)
    · exact ⟨_, _, _, _, _, htokens, by rw [hplace]; rfl⟩
    · exact ⟨_, _, _, _, _, htokens, by rw [hplace]; exact if_neg hname⟩

/-! ## Calls of what tokens spell -/

/-- The calls of what tokens may spell inside a statement. -/
def Form.calls : Form → List Call
  | expr _ e => Calls.ofExpr e
  | args list => Calls.ofArgs list

/-- The calls of what tokens may spell outside expressions. -/
def Shape.calls : Shape → List Call
  | statement made => Calls.ofStatement made
  | body made => Calls.ofBody made
  | list made => Calls.ofStatements made

/-- A name that no parenthesis follows calls nothing. -/
theorem callsFrom_name {name : String} {loc : Location} (h : opensParen rest = false) :
    callsFrom place (⟨.name name, loc⟩ :: rest) = callsFrom .expression rest := by
  rw [callsFrom, callAt]
  dsimp only
  rw [h]
  rfl

theorem callsFrom_call (place : Standing) (name : String) (loc lp : Location)
    (rest : List Located) :
    callsFrom place (⟨.name name, loc⟩ :: mark .leftParen lp :: rest) =
      (place.call? name loc).toList ++ callsFrom .expression rest := rfl

theorem callsFrom_comma (place : Standing) (loc : Location) (rest : List Located) :
    callsFrom place (mark .comma loc :: rest) = callsFrom .expression rest := rfl

theorem Terms.callsFrom_append {terms : List Term} (h : Terms ts terms) (rest : List Located) :
    callsFrom .expression (ts ++ rest) = callsFrom .expression rest := by
  induction h with
  | one => rfl
  | more _ _ _ _ _ _ ih => exact ih

theorem Chain.callsFrom_append {value : Selector} (h : Chain ts value) (rest : List Located) :
    callsFrom .expression (ts ++ rest) = callsFrom .expression rest := by
  cases h with
  | plain h => exact h.callsFrom_append rest
  | up h loc =>
    rw [List.append_assoc, h.callsFrom_append]
    rfl
  | down h loc =>
    rw [List.append_assoc, h.callsFrom_append]
    rfl

theorem Key.callsFrom_append {key : Option String} (h : Key ts key) (rest : List Located) :
    callsFrom .expression (ts ++ rest) = callsFrom .expression rest := by
  cases h <;> rfl

theorem Params.callsFrom_append {params : List Param} (h : Params ts params)
    (hrest : opensParen rest = false) :
    callsFrom .expression (ts ++ rest) = callsFrom .expression rest := by
  induction h with
  | none => rfl
  | last type name typeLoc loc => exact (callsFrom_name rfl).trans (callsFrom_name hrest)
  | more type name typeLoc loc comma _ _ ih =>
    exact (callsFrom_name rfl).trans ((callsFrom_name rfl).trans ih)

theorem ofArgs_criteria (criteria : List (String × Expr)) :
    Calls.ofArgs (criteria.map fun (key, e) => ⟨some key, e⟩) = Calls.ofCriteria criteria := by
  induction criteria with
  | nil => rfl
  | cons criterion rest ih => exact congrArg _ ih

/-- Inside a statement the tokens of an expression make the calls of the expression. A name at the
end of the expression must not meet a parenthesis. -/
theorem Spells.callsFrom_append {form : Form} (h : Spells ts form) {rest : List Located}
    (hrest : opensParen rest = false) :
    callsFrom .expression (ts ++ rest) = form.calls ++ callsFrom .expression rest := by
  induction h generalizing rest with
  | lift hlevel h ih => exact ih hrest
  | @binary left right l r op loc hleft hright hapart ihleft ihright =>
    have hsign : opensParen (mark (sign op) loc :: (right ++ rest)) = false := by cases op <;> rfl
    have hbehind : callsFrom .expression (mark (sign op) loc :: (right ++ rest)) =
        callsFrom .expression (right ++ rest) := by cases op <;> rfl
    rw [List.append_assoc, List.cons_append, ihleft hsign, hbehind, ihright hrest,
      ← List.append_assoc]
    rfl
  | @unary ts e op loc h ih =>
    have hbehind : callsFrom .expression (mark (unarySign op) loc :: (ts ++ rest)) =
        callsFrom .expression (ts ++ rest) := by cases op <;> rfl
    rw [List.cons_append, hbehind, ih hrest]
    rfl
  | int => rfl
  | text => rfl
  | trueWord => rfl
  | falseWord => rfl
  | parens lp rp h ih =>
    rw [List.cons_append, List.append_assoc]
    exact ih rfl
  | selector h => exact h.callsFrom_append rest
  | ident name loc => exact callsFrom_name hrest
  | world loc lp first second rp hx hy hz ihx ihy ihz =>
    simp only [List.cons_append, List.append_assoc]
    rw [callsFrom_call, ihx rfl, callsFrom_comma, ihy rfl, callsFrom_comma, ihz rfl]
    change _ = (Calls.ofExpr _ ++ Calls.ofExpr _ ++ Calls.ofExpr _) ++ _
    rw [List.append_assoc, List.append_assoc]
    rfl
  | waypoint name loc lp place rp => rfl
  | query loc lp rp h ih =>
    simp only [List.cons_append, List.append_assoc]
    rw [callsFrom_call, ih rfl]
    change _ = Calls.ofCriteria _ ++ _
    rw [← ofArgs_criteria]
    rfl
  | predicate name loc lp rp hname h ih =>
    have hcall : Standing.expression.call? name loc = some ⟨name, loc, true⟩ := if_neg hname
    simp only [List.cons_append, List.append_assoc]
    rw [callsFrom_call, ih rfl, hcall]
    rfl
  | noArgs => rfl
  | lastArg hkey h ih =>
    rw [List.append_assoc, hkey.callsFrom_append, ih hrest]
    change _ = (_ ++ Calls.ofArgs []) ++ _
    rw [Calls.ofArgs, List.append_nil]
    rfl
  | moreArgs comma hkey h hlist hrest' ih ihrest =>
    simp only [List.cons_append, List.append_assoc]
    rw [hkey.callsFrom_append, ih rfl, callsFrom_comma, ihrest hrest, ← List.append_assoc]
    rfl

/-- A body opens with a brace, so it does not matter where it stands. -/
theorem Writes.callsFrom_body {body : Body Statement} (h : Writes ts (.body body))
    (place : Standing) (rest : List Located) :
    callsFrom place (ts ++ rest) = callsFrom .statement (ts ++ rest) := by
  obtain ⟨loc, more, rfl⟩ := h.body_head
  rfl

/-- An expression up to a closing parenthesis, and the body behind it. -/
theorem callsFrom_guarded {es : List Located} {e : Expr} {body : Body Statement}
    (he : Spells es (.expr .disjunction e)) (h : Writes ts (.body body))
    (hbody : ∀ rest, callsFrom .statement (ts ++ rest) =
      Calls.ofBody body ++ callsFrom .statement rest) (rp : Location) (rest : List Located) :
    callsFrom .expression (es ++ mark .rightParen rp :: (ts ++ rest)) =
      Calls.ofExpr e ++ Calls.ofBody body ++ callsFrom .statement rest := by
  rw [he.callsFrom_append rfl, List.append_assoc, ← hbody rest]
  exact congrArg _ (h.callsFrom_body _ rest)

/-- Outside expressions nothing needs to be known of what follows: the last token is a semicolon or
a brace, and behind it begins a statement. -/
theorem Writes.callsFrom_append {shape : Shape} (h : Writes ts shape) (rest : List Located) :
    callsFrom .statement (ts ++ rest) = shape.calls ++ callsFrom .statement rest := by
  induction h generalizing rest with
  | empty loc => rfl
  | block h ih => exact ih rest
  | define name loc place lp rp hparams hnames h ih =>
    simp only [List.cons_append, List.append_assoc]
    refine (hparams.callsFrom_append ?_).trans ?_
    · rfl
    · exact (h.callsFrom_body _ rest).trans (ih rest)
  | cond loc lp rp he h ih =>
    simp only [List.cons_append, List.append_assoc]
    refine (callsFrom_guarded he h ih rp rest).trans ?_
    change _ = Calls.ofExpr _ ++ Calls.ofBody _ ++ [] ++ _
    rw [List.append_nil]
  | @condElse es ts us e yes no loc lp rp place he h hno ih ihno =>
    simp only [List.cons_append, List.append_assoc]
    refine (callsFrom_guarded he h ih rp _).trans ?_
    have hrest : callsFrom .statement (word .elseWord place :: (us ++ rest)) =
        Calls.ofBody no ++ callsFrom .statement rest :=
      (hno.callsFrom_body .expression rest).trans (ihno rest)
    rw [hrest, ← List.append_assoc]
    rfl
  | @condElseIf es ts us e yes next loc lp rp place nested he h hnext ih ihnext =>
    simp only [List.cons_append, List.append_assoc]
    refine (callsFrom_guarded he h ih rp _).trans ?_
    -- A keyword makes no call wherever it stands.
    have hrest :
        callsFrom .statement (word .elseWord place :: word .ifWord nested :: (us ++ rest)) =
          Calls.ofStatement next ++ callsFrom .statement rest := ihnext rest
    rw [hrest, ← List.append_assoc]
    change _ = Calls.ofExpr e ++ Calls.ofBody yes ++ (Calls.ofStatement next ++ []) ++ _
    rw [List.append_nil]
  | repeatCount loc lp rp he h ih =>
    simp only [List.cons_append, List.append_assoc]
    exact callsFrom_guarded he h ih rp rest
  | repeatRange name loc lp place colon rp he h ih =>
    simp only [List.cons_append, List.append_assoc]
    refine (callsFrom_guarded he h ih rp rest).trans ?_
    change _ = ([] ++ Calls.ofExpr _ ++ [] ++ Calls.ofBody _) ++ _
    rw [List.nil_append, List.append_nil]
  | loop loc lp rp he h ih =>
    simp only [List.cons_append, List.append_assoc]
    exact callsFrom_guarded he h ih rp rest
  | assert loc lp rp semicolon he =>
    simp only [List.cons_append, List.append_assoc]
    exact he.callsFrom_append rfl
  | assertMessage message loc lp comma place rp semicolon he =>
    simp only [List.cons_append, List.append_assoc]
    exact he.callsFrom_append rfl
  | bind name loc place assign semicolon he =>
    simp only [List.cons_append, List.append_assoc]
    exact he.callsFrom_append rfl
  | assign name loc assign semicolon he =>
    simp only [List.cons_append, List.append_assoc]
    exact he.callsFrom_append rfl
  | command name loc lp rp semicolon hargs =>
    simp only [List.cons_append, List.append_assoc]
    rw [callsFrom_call, hargs.callsFrom_append rfl]
    rfl
  | body loc close h hnames ih =>
    simp only [List.cons_append, List.append_assoc]
    exact ih _
  | nil => rfl
  | cons h hrest ih ihrest =>
    rw [List.append_assoc, ih, ihrest, ← List.append_assoc]
    rfl

/-- The walk over a program finds the calls among its tokens, in the same order. -/
theorem Derives.calls_eq {tokens : List Located} {program : Program}
    (h : Derives tokens program) : program.calls = callsFrom .statement tokens := by
  have hcalls := h.1.callsFrom_append []
  rw [List.append_nil] at hcalls
  exact (List.append_nil _).symm.trans hcalls.symm

end Grammar

/-! ## Checks before the run -/

namespace Run

variable {σ : Type} {setup : Setup σ}

/-- A call whose name is evident, or whose function has been found. -/
def Answered (setup : Setup σ) (declared : List String) (s s' : State σ) (call : Call) : Prop :=
  Evident setup declared s.env call ∨
    call.isPredicate = false ∧ ∃ callee, Loaded s'.functions call.name callee

/-- A check that lets a list of calls pass leaves none of them out. -/
theorem answered_of_checkCalls {declared : List String} {calls : List Call} {s s' : State σ}
    (h : checkCalls setup declared calls s = (.ok (), s')) :
    Grown s.functions s'.functions ∧ ∀ call ∈ calls, Answered setup declared s s' call := by
  induction calls generalizing s with
  | nil =>
    cases h
    exact ⟨.refl _, nofun⟩
  | cons call rest ih =>
    obtain ⟨s₁, hadmitted, h⟩ := checkCalls_cons_eq_ok_iff.1 h
    obtain ⟨hgrown, hrest⟩ := ih h
    cases hadmitted with
    | evident hevident => exact ⟨hgrown, List.forall_mem_cons.2 ⟨.inl hevident, hrest⟩⟩
    | @stored _ callee hcommand hnot hfetched =>
      have hfirst : Grown s.functions s₁.functions := fun _ _ => hfetched.kept
      refine ⟨fun name callee hloaded => hgrown name callee (hfirst name callee hloaded), ?_⟩
      have hloaded := hgrown call.name callee hfetched.remembered
      refine List.forall_mem_cons.2 ⟨.inr ⟨hcommand, callee, hloaded⟩, fun other hother => ?_⟩
      -- A lookup does not change which macros are in sight.
      have hother := hrest other hother
      unfold Answered at hother ⊢
      rwa [hfetched.env_eq] at hother

end Run

/-! ## Every call once -/

open CommandLine Grammar

theorem ordered_of_tokenize {source : String} {list : TokenList}
    (h : tokenize source = .ok list) :
    list.tokens.Pairwise fun a b => a.loc.Before b.loc := by
  obtain ⟨hread, -⟩ := Lexer.scan_course .start source.toList [] rfl
  obtain ⟨pieces, gap, hcourse, htokens, -⟩ := hread list h
  rw [← htokens]
  exact hcourse.laid.ordered

/-- The walk over a program that can be read visits every call once, in the order of the text. The
places of the calls go forward. The calls are those that stand in the tokens: a name directly before
an opening parenthesis, except the name of a declaration and the forms that are no predicates; it is
a predicate exactly if it stands in an expression. The counts of the script are the numbers of these
calls, however they are listed, and a check before the run that lets the program pass has found an
answer for each of them. -/
theorem calls_in_text_order {source : String} {program : Program}
    (h : parse source = .ok program) :
    ∃ list, tokenize source = .ok list ∧
      (program.calls.map Call.loc).Pairwise Location.Before ∧
      (∀ call, call ∈ program.calls ↔ StandsIn list.tokens call) ∧
      (∀ calls : List Call, calls.Nodup → (∀ call, call ∈ calls ↔ StandsIn list.tokens call) →
        ∀ path, checkScript path source =
          ⟨[path ++ ": ok (" ++ toString program.length ++ " statements, " ++
            toString (calls.countP fun call => !call.isPredicate) ++ " command calls, " ++
            toString (calls.countP Call.isPredicate) ++ " predicate calls)"], none⟩) ∧
      ∀ (σ : Type) (setup : Setup σ) (s s' : State σ),
        Run.validate setup program s = (.ok (), s') → ∀ call, StandsIn list.tokens call →
          Run.Answered setup program.declared s s' call := by
  obtain ⟨list, hlist, hderives⟩ := parse_eq_ok.1 h
  have hcalls := hderives.calls_eq
  have hmem : ∀ call, call ∈ program.calls ↔ StandsIn list.tokens call := by
    rw [hcalls]
    exact fun call => mem_callsFrom_iff_standsIn
  have hordered : (program.calls.map Call.loc).Pairwise Location.Before := by
    rw [hcalls]
    exact (List.pairwise_map.2 (ordered_of_tokenize hlist)).sublist (callsFrom_locs_sublist _ _)
  refine ⟨list, hlist, hordered, hmem, fun calls hnodup hsame path => ?_, ?_⟩
  · have hown : program.calls.Nodup := by
      refine (List.pairwise_map.1 hordered).imp ?_
      rintro call _ hbefore rfl
      exact Location.before_irrefl _ hbefore
    have hperm : calls.Perm program.calls :=
      (List.perm_ext_iff_of_nodup hnodup hown).2 fun call => (hsame call).trans (hmem call).symm
    have hpredicates := hperm.countP_eq Call.isPredicate
    have hcommands : (calls.countP fun call => !call.isPredicate) =
        program.calls.length - program.calls.countP Call.isPredicate := by
      have hnot : (fun call : Call => !call.isPredicate) =
          fun call => decide ¬ call.isPredicate = true := by
        funext call
        cases call.isPredicate <;> rfl
      rw [hperm.countP_eq, hnot, List.length_eq_countP_add_countP Call.isPredicate]
      exact (Nat.add_sub_cancel_left ..).symm
    unfold checkScript
    rw [h, hcommands, hpredicates]
  · intro σ setup s s' hvalid call hstands
    exact (Run.answered_of_checkCalls hvalid).2 call ((hmem call).2 hstands)

/-- A predicate inside a form that is no call, and the name of a declaration, which is a call only
where it is used. -/
theorem calls_in_text_order_of_declaration :
    ∃ program list,
      parse "macro go() \x7b say(world(high(1), 2, 3)); \x7d go();" = .ok program ∧
      tokenize "macro go() \x7b say(world(high(1), 2, 3)); \x7d go();" = .ok list ∧
      program.calls.map (fun call => (call.name, call.isPredicate)) =
        [("say", false), ("high", true), ("go", false)] ∧
      (program.calls.map Call.loc).Pairwise Location.Before ∧
      StandsIn list.tokens ⟨"high", ⟨1, 24⟩, true⟩ := by
  have hcalls : (parse "macro go() \x7b say(world(high(1), 2, 3)); \x7d go();").toOption.map
      Program.calls =
        some [⟨"say", ⟨1, 14⟩, false⟩, ⟨"high", ⟨1, 24⟩, true⟩, ⟨"go", ⟨1, 43⟩, false⟩] := by
    decide +kernel
  cases hparse : parse "macro go() \x7b say(world(high(1), 2, 3)); \x7d go();" with
  | error error =>
    rw [hparse] at hcalls
    cases hcalls
  | ok program =>
    rw [hparse] at hcalls
    have hcalls : program.calls = _ := Option.some.inj hcalls
    obtain ⟨list, hlist, hordered, hmem, -⟩ := calls_in_text_order hparse
    refine ⟨program, list, rfl, hlist, by rw [hcalls]; rfl, hordered, (hmem _).1 ?_⟩
    rw [hcalls]
    exact .tail _ (.head _)

end BlockScript
