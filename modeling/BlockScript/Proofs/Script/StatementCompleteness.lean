import BlockScript.Proofs.Script.ExprCompleteness
import BlockScript.Proofs.Script.StatementSoundness

/-!
# The parser reads exactly the grammar

Tokens that spell statements are read as those statements. With the other direction this makes the
parser and the grammar agree on every list of tokens, so no list spells two programs. The number
that a list of statements counts down is at least the number of its tokens, and it loses one where
a statement has taken at least one.
-/
namespace BlockScript
set_option autoImplicit false

namespace Grammar

open BlockScript.Parser BlockScript.Script

/-! ## Parts of statements -/

theorem paramsFrom_step {before : List Param} {type : ParamType} {name : String}
    (h : ¬ before.any (fun param => param.name = name) = true) (n : Nat)
    (typeLoc loc stop : Location) (ts : List Located) :
    paramsFrom (n + 1) before ⟨⟨.name type.name, typeLoc⟩ :: ⟨.name name, loc⟩ :: ts, stop⟩ =
      (do
        if ← eat (.symbol .comma) then paramsFrom n (before ++ [⟨name, type⟩])
        else return before ++ [⟨name, type⟩] : Parser (List Param)) ⟨ts, stop⟩ := by
  refine (bind_ok (a := typeLoc) rfl).trans ((bind_ok (a := type.name) rfl).trans ?_)
  rw [ParamType.ofName?_eq_some.2 rfl]
  change (if before.any (fun param => param.name = name) then
      failAt loc (.duplicateParameter name)
    else _ : Parser (List Param)) ⟨ts, stop⟩ = _
  rw [if_neg h]

theorem paramsFrom_complete {ts : List Located} {list : List Param} (h : Params ts list)
    (hlist : list ≠ []) {before : List Param} (hnames : ((before ++ list).map Param.name).Nodup)
    {n : Nat} (hn : ts.length ≤ n) (rest : List Located) (rp stop : Location) :
    paramsFrom n before ⟨ts ++ mark .rightParen rp :: rest, stop⟩ =
      .ok (before ++ list, ⟨mark .rightParen rp :: rest, stop⟩) := by
  induction h generalizing before n with
  | none => exact absurd rfl hlist
  | last type name typeLoc loc =>
    rw [List.length_cons] at hn
    obtain ⟨n, rfl⟩ : ∃ k, n = k + 1 := ⟨n - 1, by omega⟩
    have hfresh := ((nodup_names_concat before ⟨name, type⟩).1 hnames).2
    refine (paramsFrom_step hfresh n typeLoc loc stop _).trans ?_
    exact bind_ok (eat_cons_ne (fun htoken => (by cases htoken)) rest stop)
  | @more ts params type name typeLoc loc comma hparams h ih =>
    rw [List.length_cons, List.length_cons, List.length_cons] at hn
    obtain ⟨n, rfl⟩ : ∃ k, n = k + 1 := ⟨n - 1, by omega⟩
    have hassoc : before ++ ⟨name, type⟩ :: params = before ++ [⟨name, type⟩] ++ params :=
      (List.append_assoc before [⟨name, type⟩] params).symm
    rw [hassoc] at hnames ⊢
    have hbefore : ((before ++ [(⟨name, type⟩ : Param)]).map Param.name).Nodup := by
      rw [List.map_append] at hnames
      exact (List.nodup_append.1 hnames).1
    have hfresh := ((nodup_names_concat before ⟨name, type⟩).1 hbefore).2
    refine (paramsFrom_step hfresh n typeLoc loc stop _).trans ?_
    refine (bind_ok (eat_cons _ comma stop _)).trans ?_
    exact ih hparams hnames (by omega)

theorem params_complete {ts : List Located} {list : List Param} (h : Params ts list)
    (hnames : (list.map Param.name).Nodup) (rest : List Located) (rp stop : Location) :
    params ⟨ts ++ mark .rightParen rp :: rest, stop⟩ =
      .ok (list, ⟨mark .rightParen rp :: rest, stop⟩) := by
  cases list with
  | nil =>
    cases h
    rfl
  | cons param list =>
    obtain ⟨name, loc, more, rfl⟩ : ∃ name loc more, ts = ⟨.name name, loc⟩ :: more := by
      cases h <;> exact ⟨_, _, _, rfl⟩
    change (if some (Token.name name) = some (.symbol .rightParen) then pure []
      else paramsFrom _ [] : Parser (List Param)) _ = _
    rw [if_neg (fun heq => (by cases heq))]
    refine paramsFrom_complete h (List.cons_ne_nil _ _) hnames ?_ rest rp stop
    exact (List.sublist_append_left (⟨.name name, loc⟩ :: more)
      (mark .rightParen rp :: rest)).length_le

variable {inner : Parser (List Statement)} {es ts rest : List Located} {e : Expr}
  {made : Body Statement} {loc stop : Location}

theorem headed_complete {α : Type} {f : Expr → Body Statement → Parser α} {rp : Location}
    (he : Spells es (.expr .disjunction e))
    (hbody : body inner ⟨ts ++ rest, stop⟩ = .ok (made, ⟨rest, stop⟩)) :
    (do
      let test ← expr
      let _ ← expect .rightParen "')'"
      let made ← body inner
      f test made : Parser α) ⟨es ++ mark .rightParen rp :: (ts ++ rest), stop⟩ =
      f e made ⟨rest, stop⟩ := by
  refine (bind_ok (expr_complete he rfl rp stop _)).trans ?_
  refine (bind_ok (expect_cons .rightParen _ rp stop _)).trans ?_
  exact bind_ok hbody

/-- The next token is not an `else`. -/
def NoElse (rest : List Located) : Prop := ∀ t ∈ rest.head?, t.token ≠ .keyword .elseWord

theorem cond_complete {lp rp : Location} {n : Nat} (he : Spells es (.expr .disjunction e))
    (hbody : body inner ⟨ts ++ rest, stop⟩ = .ok (made, ⟨rest, stop⟩)) (hrest : NoElse rest) :
    cond inner loc (n + 1) ⟨mark .leftParen lp ::
      (es ++ mark .rightParen rp :: (ts ++ rest)), stop⟩ =
      .ok (.cond e made none loc, ⟨rest, stop⟩) := by
  refine (bind_ok (expect_cons .leftParen _ lp stop _)).trans ?_
  refine (headed_complete he hbody).trans ?_
  exact bind_ok (eat_of_ne hrest stop)

theorem cond_else_complete {lp rp place : Location} {n : Nat} {us : List Located}
    {no : Body Statement} (he : Spells es (.expr .disjunction e))
    (hbody : body inner ⟨ts ++ word .elseWord place :: (us ++ rest), stop⟩ =
      .ok (made, ⟨word .elseWord place :: (us ++ rest), stop⟩))
    (hhead : ∀ t ∈ (us ++ rest).head?, t.token ≠ .keyword .ifWord)
    (hno : body inner ⟨us ++ rest, stop⟩ = .ok (no, ⟨rest, stop⟩)) :
    cond inner loc (n + 1) ⟨mark .leftParen lp :: (es ++ mark .rightParen rp ::
      (ts ++ word .elseWord place :: (us ++ rest))), stop⟩ =
      .ok (.cond e made (some no) loc, ⟨rest, stop⟩) := by
  refine (bind_ok (expect_cons .leftParen _ lp stop _)).trans ?_
  refine (headed_complete he hbody).trans ?_
  refine (bind_ok (eat_cons _ place stop _)).trans ?_
  refine (bind_ok (eat_of_ne hhead stop)).trans ?_
  exact bind_ok hno

theorem cond_elseIf_complete {lp rp place nested : Location} {n : Nat} {us : List Located}
    {next : Statement} (he : Spells es (.expr .disjunction e))
    (hbody : body inner ⟨ts ++ word .elseWord place :: word .ifWord nested :: (us ++ rest), stop⟩ =
      .ok (made, ⟨word .elseWord place :: word .ifWord nested :: (us ++ rest), stop⟩))
    (hnext : cond inner nested n ⟨us ++ rest, stop⟩ = .ok (next, ⟨rest, stop⟩)) :
    cond inner loc (n + 1) ⟨mark .leftParen lp :: (es ++ mark .rightParen rp ::
      (ts ++ word .elseWord place :: word .ifWord nested :: (us ++ rest))), stop⟩ =
      .ok (.cond e made (some ⟨[next], nested⟩) loc, ⟨rest, stop⟩) := by
  refine (bind_ok (expect_cons .leftParen _ lp stop _)).trans ?_
  refine (headed_complete he hbody).trans ?_
  refine (bind_ok (eat_cons _ place stop _)).trans ?_
  refine (bind_ok (p := here) rfl).trans ?_
  refine (bind_ok (eat_cons _ nested stop _)).trans ?_
  exact bind_ok hnext

theorem define_complete {ps : List Located} {list : List Param} {name : String}
    {place lp rp : Location} (hparams : Params ps list) (hnames : (list.map Param.name).Nodup)
    (hbody : body inner ⟨ts ++ rest, stop⟩ = .ok (made, ⟨rest, stop⟩)) :
    define inner loc ⟨⟨.name name, place⟩ :: mark .leftParen lp :: (ps ++ mark .rightParen rp ::
      (ts ++ rest)), stop⟩ = .ok (.define name list made loc, ⟨rest, stop⟩) := by
  refine (bind_ok (expectName_cons _ name place stop _)).trans ?_
  refine (bind_ok (expect_cons .leftParen _ lp stop _)).trans ?_
  refine (bind_ok (params_complete hparams hnames _ rp stop)).trans ?_
  refine (bind_ok (expect_cons .rightParen _ rp stop _)).trans ?_
  exact bind_ok hbody

theorem repetition_count_complete {lp rp : Location} (he : Spells es (.expr .disjunction e))
    (hbody : body inner ⟨ts ++ rest, stop⟩ = .ok (made, ⟨rest, stop⟩)) :
    repetition inner loc ⟨mark .leftParen lp :: (es ++ mark .rightParen rp :: (ts ++ rest)), stop⟩ =
      .ok (.repeatCount e made loc, ⟨rest, stop⟩) := by
  have hcolon : keyed (es ++ mark .rightParen rp :: (ts ++ rest)) = false :=
    he.not_keyed (.of_mark (by decide) rp _)
  rw [repetition_eq]
  split
  · next heq =>
    rw [heq] at hcolon
    cases hcolon
  · next heq =>
    rw [heq] at hcolon
    cases hcolon
  · exact headed_complete he hbody

theorem repetition_range_complete {name : String} {lp place colon rp : Location}
    (he : Spells es (.expr .disjunction e))
    (hbody : body inner ⟨ts ++ rest, stop⟩ = .ok (made, ⟨rest, stop⟩)) :
    repetition inner loc ⟨mark .leftParen lp :: ⟨.name name, place⟩ :: mark .colon colon ::
      (es ++ mark .rightParen rp :: (ts ++ rest)), stop⟩ =
      .ok (.repeatRange name (.int 0 place) e none made loc, ⟨rest, stop⟩) := by
  rw [repetition_eq]
  exact headed_complete he hbody

theorem loop_complete {lp rp : Location} (he : Spells es (.expr .disjunction e))
    (hbody : body inner ⟨ts ++ rest, stop⟩ = .ok (made, ⟨rest, stop⟩)) :
    loop inner loc ⟨mark .leftParen lp :: (es ++ mark .rightParen rp :: (ts ++ rest)), stop⟩ =
      .ok (.loop e made loc, ⟨rest, stop⟩) := by
  refine (bind_ok (expect_cons .leftParen _ lp stop _)).trans ?_
  exact headed_complete he hbody

theorem assertion_complete {lp rp semicolon : Location} (he : Spells es (.expr .disjunction e)) :
    assertion loc ⟨mark .leftParen lp :: (es ++ mark .rightParen rp :: mark .semicolon semicolon ::
      rest), stop⟩ = .ok (.assert e none loc, ⟨rest, stop⟩) := by
  refine (bind_ok (expect_cons .leftParen _ lp stop _)).trans ?_
  refine (bind_ok (expr_complete he rfl rp stop _)).trans ?_
  refine (bind_ok (eat_cons_ne (fun htoken => (by cases htoken)) _ stop)).trans ?_
  refine (bind_ok (p := pure none) rfl).trans ?_
  refine (bind_ok (expect_cons .rightParen _ rp stop _)).trans ?_
  exact bind_ok (expect_cons .semicolon _ semicolon stop rest)

theorem assertion_message_complete {message : String} {lp comma place rp semicolon : Location}
    (he : Spells es (.expr .disjunction e)) :
    assertion loc ⟨mark .leftParen lp :: (es ++ mark .comma comma :: ⟨.text message, place⟩ ::
      mark .rightParen rp :: mark .semicolon semicolon :: rest), stop⟩ =
      .ok (.assert e (some message) loc, ⟨rest, stop⟩) := by
  refine (bind_ok (expect_cons .leftParen _ lp stop _)).trans ?_
  refine (bind_ok (expr_complete he rfl comma stop _)).trans ?_
  refine (bind_ok (eat_cons _ comma stop _)).trans ?_
  have htext := expectText_cons "assertion message string" message place stop
    (mark .rightParen rp :: mark .semicolon semicolon :: rest)
  refine (bind_ok (bind_ok htext)).trans ?_
  refine (bind_ok (expect_cons .rightParen _ rp stop _)).trans ?_
  exact bind_ok (expect_cons .semicolon _ semicolon stop rest)

theorem binding_complete {name : String} {place assign semicolon : Location}
    (he : Spells es (.expr .disjunction e)) :
    binding loc ⟨⟨.name name, place⟩ :: mark .assign assign ::
      (es ++ mark .semicolon semicolon :: rest), stop⟩ = .ok (.bind name e loc, ⟨rest, stop⟩) := by
  refine (bind_ok (expectName_cons _ name place stop _)).trans ?_
  refine (bind_ok (expect_cons .assign _ assign stop _)).trans ?_
  refine (bind_ok (expr_complete he rfl semicolon stop _)).trans ?_
  exact bind_ok (expect_cons .semicolon _ semicolon stop rest)

theorem named_assign_complete {name : String} {assign semicolon : Location}
    (he : Spells es (.expr .disjunction e)) :
    named name loc ⟨mark .assign assign :: (es ++ mark .semicolon semicolon :: rest), stop⟩ =
      .ok (.assign name e loc, ⟨rest, stop⟩) := by
  refine (bind_ok (eat_cons _ assign stop _)).trans ?_
  refine (bind_ok (expr_complete he rfl semicolon stop _)).trans ?_
  exact bind_ok (expect_cons .semicolon _ semicolon stop rest)

theorem named_command_complete {name : String} {list : List (Arg Expr)} {lp rp semicolon : Location}
    (hargs : Spells es (.args list)) :
    named name loc ⟨mark .leftParen lp :: (es ++ mark .rightParen rp :: mark .semicolon semicolon ::
      rest), stop⟩ = .ok (.command name list loc, ⟨rest, stop⟩) := by
  refine (bind_ok (eat_cons_ne (fun htoken => (by cases htoken)) _ stop)).trans ?_
  refine (bind_ok (eat_cons _ lp stop _)).trans ?_
  refine (bind_ok (args_expr_complete hargs rp stop _)).trans ?_
  exact bind_ok (expect_cons .semicolon _ semicolon stop rest)

theorem body_complete {list : List Statement} {close : Location}
    (hinner : inner ⟨ts ++ mark .rightBrace close :: rest, stop⟩ =
      .ok (list, ⟨mark .rightBrace close :: rest, stop⟩)) :
    body inner ⟨mark .leftBrace loc :: (ts ++ mark .rightBrace close :: rest), stop⟩ =
      .ok (⟨list, loc⟩, ⟨rest, stop⟩) := by
  refine (bind_ok (expect_cons .leftBrace _ loc stop _)).trans ?_
  refine (bind_ok hinner).trans ?_
  refine (bind_ok (p := peek) rfl).trans ?_
  exact bind_ok (expect_cons .rightBrace _ close stop rest)

/-! ## Statements and programs -/

/-- What the tokens of a statement, a body or a list of statements are read as. -/
def CompleteShape (ts : List Located) : Shape → Prop
  | .statement made => ∀ n, ts.length ≤ n + 1 → ∀ rest stop, NoElse rest →
    statement (statements n []) ⟨ts ++ rest, stop⟩ = .ok (made, ⟨rest, stop⟩) ∧
    -- the count of a chain of conditions is its own, so one behind an `else` is read at any count
    ∀ loc us, ts = word .ifWord loc :: us → ∀ k, us.length ≤ k →
      cond (statements n []) loc k ⟨us ++ rest, stop⟩ = .ok (made, ⟨rest, stop⟩)
  | .body made => ∀ n, ts.length ≤ n + 1 → ∀ rest stop,
    body (statements n []) ⟨ts ++ rest, stop⟩ = .ok (made, ⟨rest, stop⟩)
  | .list made => ∀ n, ts.length ≤ n → ∀ seen rest stop, closes rest = true →
    (macroNames made ++ seen).Nodup →
    statements n seen ⟨ts ++ rest, stop⟩ = .ok (made, ⟨rest, stop⟩)

/-- A statement that is no condition. -/
theorem CompleteShape.of_statement {made : Statement}
    (hfirst : ∀ loc us, ts ≠ word .ifWord loc :: us)
    (h : ∀ n, ts.length ≤ n + 1 → ∀ rest stop,
      statement (statements n []) ⟨ts ++ rest, stop⟩ = .ok (made, ⟨rest, stop⟩)) :
    CompleteShape ts (.statement made) :=
  fun n hn rest stop _ => ⟨h n hn rest stop, fun loc us hts => absurd hts (hfirst loc us)⟩

theorem CompleteShape.of_cond {made : Statement}
    (h : ∀ n, ts.length ≤ n → ∀ rest stop, NoElse rest → ∀ k, ts.length ≤ k →
      cond (statements n []) loc k ⟨ts ++ rest, stop⟩ = .ok (made, ⟨rest, stop⟩)) :
    CompleteShape (word .ifWord loc :: ts) (.statement made) := by
  intro n hn rest stop hrest
  rw [List.length_cons] at hn
  have hcond := h n (by omega) rest stop hrest
  refine ⟨hcond _ (List.sublist_append_left ts rest).length_le, fun loc' us hts k hk => ?_⟩
  cases hts
  exact hcond k hk

theorem Writes.body_head {made : Body Statement} (h : Writes ts (.body made)) :
    ∃ loc more, ts = mark .leftBrace loc :: more := by
  cases h
  exact ⟨_, _, rfl⟩

theorem Writes.head {made : Statement} (h : Writes ts (.statement made)) :
    ∃ first more, ts = first :: more ∧ first.token ≠ .symbol .rightBrace ∧
      first.token ≠ .keyword .elseWord := by
  cases h with
  | block h =>
    obtain ⟨loc, more, rfl⟩ := h.body_head
    exact ⟨_, _, rfl, (fun h => by cases h), fun h => by cases h⟩
  | _ => exact ⟨_, _, rfl, (fun h => by cases h), fun h => by cases h⟩

/-- Behind a statement comes no `else`. -/
theorem Writes.noElse {made : List Statement} (h : Writes ts (.list made))
    (hrest : closes rest = true) : NoElse (ts ++ rest) := by
  intro t ht
  generalize hshape : Shape.list made = shape at h
  cases h with
  | nil =>
    rcases rest with _ | ⟨t', rest⟩
    · cases ht
    · cases ht
      rw [of_decide_eq_true hrest]
      exact fun htoken => by cases htoken
  | cons h hrest =>
    obtain ⟨first, more, rfl, -, hfirst⟩ := h.head
    cases ht
    exact hfirst
  | _ => cases hshape

theorem Writes.complete {shape : Shape} (h : Writes ts shape) : CompleteShape ts shape := by
  induction h with
  | empty loc => exact .of_statement (fun _ _ h => (by cases h)) fun n hn rest stop => rfl
  | @block ts made h ih =>
    obtain ⟨loc, more, rfl⟩ := h.body_head
    refine .of_statement (fun _ _ h => (by cases h)) fun n hn rest stop => ?_
    exact bind_ok (ih n hn rest stop)
  | define name loc place lp rp hparams hnames h ih =>
    refine .of_statement (fun _ _ h => (by cases h)) fun n hn rest stop => ?_
    simp only [List.cons_append, List.append_assoc, List.length_cons, List.length_append] at hn ⊢
    exact define_complete hparams hnames (ih n (by omega) rest stop)
  | cond loc lp rp he h ih =>
    refine .of_cond fun n hn rest stop hrest k hk => ?_
    simp only [List.cons_append, List.append_assoc, List.length_cons, List.length_append] at hn hk ⊢
    obtain ⟨k, rfl⟩ : ∃ k', k = k' + 1 := ⟨k - 1, by omega⟩
    exact cond_complete he (ih n (by omega) rest stop) hrest
  | condElse loc lp rp place he h hno ih ihno =>
    refine .of_cond fun n hn rest stop hrest k hk => ?_
    simp only [List.cons_append, List.append_assoc, List.length_cons, List.length_append] at hn hk ⊢
    obtain ⟨k, rfl⟩ : ∃ k', k = k' + 1 := ⟨k - 1, by omega⟩
    refine cond_else_complete he (ih n (by omega) _ stop) ?_ (ihno n (by omega) rest stop)
    obtain ⟨loc, more, rfl⟩ := hno.body_head
    intro t ht htoken
    cases ht
    cases htoken
  | condElseIf loc lp rp place nested he h hnext ih ihnext =>
    refine .of_cond fun n hn rest stop hrest k hk => ?_
    simp only [List.cons_append, List.append_assoc, List.length_cons, List.length_append] at hn hk ⊢
    obtain ⟨k, rfl⟩ : ∃ k', k = k' + 1 := ⟨k - 1, by omega⟩
    refine cond_elseIf_complete he (ih n (by omega) _ stop) ?_
    have hchain := ihnext n (by rw [List.length_cons]; omega) rest stop hrest
    exact hchain.2 nested _ rfl k (by omega)
  | repeatCount loc lp rp he h ih =>
    refine .of_statement (fun _ _ h => (by cases h)) fun n hn rest stop => ?_
    simp only [List.cons_append, List.append_assoc, List.length_cons, List.length_append] at hn ⊢
    exact repetition_count_complete he (ih n (by omega) rest stop)
  | repeatRange name loc lp place colon rp he h ih =>
    refine .of_statement (fun _ _ h => (by cases h)) fun n hn rest stop => ?_
    simp only [List.cons_append, List.append_assoc, List.length_cons, List.length_append] at hn ⊢
    exact repetition_range_complete he (ih n (by omega) rest stop)
  | loop loc lp rp he h ih =>
    refine .of_statement (fun _ _ h => (by cases h)) fun n hn rest stop => ?_
    simp only [List.cons_append, List.append_assoc, List.length_cons, List.length_append] at hn ⊢
    exact loop_complete he (ih n (by omega) rest stop)
  | assert loc lp rp semicolon he =>
    refine .of_statement (fun _ _ h => (by cases h)) fun n hn rest stop => ?_
    simp only [List.cons_append, List.append_assoc, List.nil_append]
    exact assertion_complete he
  | assertMessage message loc lp comma place rp semicolon he =>
    refine .of_statement (fun _ _ h => (by cases h)) fun n hn rest stop => ?_
    simp only [List.cons_append, List.append_assoc, List.nil_append]
    exact assertion_message_complete he
  | bind name loc place assign semicolon he =>
    refine .of_statement (fun _ _ h => (by cases h)) fun n hn rest stop => ?_
    simp only [List.cons_append, List.append_assoc, List.nil_append]
    exact binding_complete he
  | assign name loc assign semicolon he =>
    refine .of_statement (fun _ _ h => (by cases h)) fun n hn rest stop => ?_
    simp only [List.cons_append, List.append_assoc, List.nil_append]
    exact named_assign_complete he
  | command name loc lp rp semicolon hargs =>
    refine .of_statement (fun _ _ h => (by cases h)) fun n hn rest stop => ?_
    simp only [List.cons_append, List.append_assoc, List.nil_append]
    exact named_command_complete hargs
  | body loc close h hnames ih =>
    intro n hn rest stop
    simp only [List.cons_append, List.append_assoc, List.nil_append, List.length_cons,
      List.length_append] at hn ⊢
    refine body_complete (ih n (by omega) [] _ stop rfl ?_)
    rwa [List.append_nil]
  | nil =>
    intro n hn seen rest stop hrest hnames
    cases n with
    | zero => rfl
    | succ n =>
      rw [List.nil_append, statements_succ]
      exact if_pos hrest
  | @cons ts us first others h hrest ih ihrest =>
    intro n hn seen rest stop hcloses hnames
    obtain ⟨t, more, rfl, hbrace, -⟩ := h.head
    rw [List.cons_append, List.length_cons, List.length_append] at hn
    obtain ⟨n, rfl⟩ : ∃ k, n = k + 1 := ⟨n - 1, by omega⟩
    rw [List.append_assoc, statements_succ]
    have hopen : ¬ closes (t :: more ++ (us ++ rest)) = true :=
      fun heq => hbrace (of_decide_eq_true heq)
    refine (if_neg hopen).trans ?_
    have hfirst := (ih n (by rw [List.length_cons]; omega) _ stop (hrest.noElse hcloses)).1
    rw [macroNames_cons, List.append_assoc] at hnames
    have hothers := (List.perm_append_comm_assoc _ _ _).nodup_iff.1 hnames
    have hseen' : (macroNames [first] ++ seen).Nodup := (List.nodup_append.1 hothers).2.1
    have hseen : seen.Nodup := (List.nodup_append.1 hseen').2.1
    refine (bind_ok hfirst).trans ?_
    refine (bind_ok ((declare_eq_ok hseen).2 ⟨rfl, hseen', rfl⟩)).trans ?_
    exact bind_ok (ihrest n (by omega) _ rest stop hcloses hothers)

theorem program_complete {tokens : List Located} {made : Program} (h : Derives tokens made)
    (stop : Location) : program ⟨tokens, stop⟩ = .ok (made, ⟨[], stop⟩) := by
  obtain ⟨hwrites, hnames⟩ := h
  have hall := hwrites.complete tokens.length (Nat.le_refl _) [] [] stop rfl (by
    rwa [List.append_nil])
  rw [List.append_nil] at hall
  refine (bind_ok (p := remaining) rfl).trans ?_
  refine (bind_ok hall).trans ?_
  rfl

theorem program_eq_ok {list rest : TokenList} {made : Program} :
    program list = .ok (made, rest) ↔ Derives list.tokens made ∧ rest = ⟨[], list.stop⟩ := by
  constructor
  · exact program_sound
  · rintro ⟨hderives, rfl⟩
    exact program_complete hderives list.stop

theorem Derives.unique {tokens : List Located} {made other : Program} (hmade : Derives tokens made)
    (hother : Derives tokens other) : made = other := by
  have hread := program_complete hmade default
  rw [program_complete hother default] at hread
  cases hread
  rfl

theorem runOn_eq_ok {α : Type} {parser : Parser α} {source : String} {value : α} :
    parser.runOn source = .ok value ↔
      ∃ list rest, tokenize source = .ok list ∧ parser list = .ok (value, rest) := by
  unfold Parser.runOn
  cases htokens : tokenize source with
  | error e =>
    constructor
    · intro h
      cases h
    · rintro ⟨list, rest, hlist, -⟩
      cases hlist
  | ok list =>
    change (parser list >>= fun made => pure made.1 : Except SyntaxError α) = _ ↔ _
    cases hvalue : parser list with
    | error e =>
      constructor
      · intro h
        cases h
      · rintro ⟨list', rest, hlist, hvalue'⟩
        cases hlist
        rw [hvalue] at hvalue'
        cases hvalue'
    | ok pair =>
      constructor
      · intro h
        cases h
        exact ⟨list, pair.2, rfl, hvalue⟩
      · rintro ⟨list', rest, hlist, hvalue'⟩
        cases hlist
        rw [hvalue] at hvalue'
        cases hvalue'
        rfl

/-- A text stands for what its tokens spell. -/
theorem parse_eq_ok {source : String} {made : Program} :
    parse source = .ok made ↔ ∃ list, tokenize source = .ok list ∧ Derives list.tokens made := by
  refine runOn_eq_ok.trans ⟨?_, ?_⟩
  · rintro ⟨list, rest, hlist, hmade⟩
    exact ⟨list, hlist, (program_eq_ok.1 hmade).1⟩
  · rintro ⟨list, hlist, hderives⟩
    exact ⟨list, _, hlist, program_eq_ok.2 ⟨hderives, rfl⟩⟩

/-- A program is read exactly from the tokens that spell it, to the last one; no tokens spell two
programs, and a text stands for what its tokens spell. -/
theorem parser_reads_grammar :
    (∀ list made rest, program list = .ok (made, rest) ↔
      Derives list.tokens made ∧ rest = ⟨[], list.stop⟩) ∧
    (∀ tokens made other, Derives tokens made → Derives tokens other → made = other) ∧
    ∀ source made, parse source = .ok made ↔
      ∃ list, tokenize source = .ok list ∧ Derives list.tokens made := by
  exact ⟨fun list made rest => program_eq_ok,
    fun tokens made other hmade hother => hmade.unique hother, fun source made => parse_eq_ok⟩

end Grammar

end BlockScript
