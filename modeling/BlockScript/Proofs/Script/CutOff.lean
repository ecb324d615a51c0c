import BlockScript.Proofs.Script.Unclosed
import BlockScript.Proofs.Token.Prefixes

/-!
# Scripts that are cut off

A script that ends inside of a block, behind whole statements of that block, is refused at the
brace that opens the block. Whatever else is missing at its end is not complained of.
-/
namespace BlockScript
set_option autoImplicit false

namespace Grammar

open BlockScript.Parser BlockScript.Script

/-! ## Tokens that are cut off -/

/-- The tokens in front of a cut. It comes behind an opening brace and whole statements. -/
def CutsAt (ts front : List Located) (loc : Location) : Prop :=
  ∃ before us after list, ts = before ++ mark .leftBrace loc :: (us ++ after) ∧
    front = before ++ mark .leftBrace loc :: us ∧ Writes us (.list list)

namespace CutsAt

variable {ts us front : List Located} {t : Located} {loc : Location}

theorem ne_nil (h : CutsAt ts front loc) : ts ≠ [] := by
  obtain ⟨before, us, after, list, rfl, -, -⟩ := h
  exact List.append_ne_nil_of_right_ne_nil _ (List.cons_ne_nil _ _)

theorem front_ne_nil (h : CutsAt ts front loc) : front ≠ [] := by
  obtain ⟨before, us, after, list, -, rfl, -⟩ := h
  exact List.append_ne_nil_of_right_ne_nil _ (List.cons_ne_nil _ _)

/-- The cut comes behind the first token. -/
theorem head (h : CutsAt (t :: ts) front loc) : ∃ more, front = t :: more := by
  obtain ⟨before, us, after, list, hts, rfl, -⟩ := h
  cases before with
  | nil =>
    cases hts
    exact ⟨us, rfl⟩
  | cons first before =>
    cases hts
    exact ⟨_, rfl⟩

/-- The brace comes behind a token that is none. -/
theorem behind (ht : t.token ≠ .symbol .leftBrace) (h : CutsAt (t :: ts) front loc) :
    ∃ more, front = t :: more ∧ CutsAt ts more loc := by
  obtain ⟨before, us, after, list, hts, rfl, hus⟩ := h
  cases before with
  | nil =>
    cases hts
    exact absurd rfl ht
  | cons first before =>
    cases hts
    exact ⟨_, rfl, before, us, after, list, rfl, rfl, hus⟩

theorem behind_plain (hts : isPlain ts = true) (h : CutsAt (ts ++ us) front loc) :
    ∃ more, front = ts ++ more ∧ CutsAt us more loc := by
  induction ts generalizing front with
  | nil => exact ⟨front, rfl, h⟩
  | cons t ts ih =>
    rw [isPlain_cons, Bool.and_eq_true] at hts
    have ht : t.token ≠ .symbol .leftBrace := by
      intro heq
      rw [heq] at hts
      cases hts.1
    obtain ⟨more, rfl, hmore⟩ := h.behind ht
    obtain ⟨rest, rfl, hrest⟩ := ih hts.2 hmore
    exact ⟨rest, rfl, hrest⟩

/-- The brace comes behind a head in parentheses. -/
theorem headed {es : List Located} {lp rp : Location} (hes : isPlain es = true)
    (h : CutsAt (mark .leftParen lp :: (es ++ mark .rightParen rp :: ts)) front loc) :
    ∃ more, front = mark .leftParen lp :: (es ++ mark .rightParen rp :: more) ∧
      CutsAt ts more loc := by
  obtain ⟨_, rfl, hinside⟩ := h.behind (fun htoken => by cases htoken)
  obtain ⟨_, rfl, hclose⟩ := hinside.behind_plain hes
  obtain ⟨more, rfl, hmore⟩ := hclose.behind (fun htoken => by cases htoken)
  exact ⟨more, rfl, hmore⟩

theorem not_plain (hts : isPlain ts = true) : ¬ CutsAt ts front loc := by
  intro h
  rw [← List.append_nil ts] at h
  obtain ⟨more, -, hmore⟩ := h.behind_plain hts
  exact hmore.ne_nil rfl

/-- The cut comes within closed tokens, or behind them. -/
theorem split (hts : Closed ts) (h : CutsAt (ts ++ us) front loc) :
    CutsAt ts front loc ∨ ∃ more, front = ts ++ more ∧ CutsAt us more loc := by
  obtain ⟨before, inside, after, list, hsplit, rfl, hinside⟩ := h
  rcases split_at_brace hts hinside.closed hsplit with ⟨between, hwithin, -⟩ | ⟨between, rfl, rfl⟩
  · exact .inl ⟨before, inside, between, list, hwithin, rfl, hinside⟩
  · exact .inr ⟨_, List.append_assoc .., between, inside, after, list, rfl, rfl, hinside⟩

/-- Within a body the cut comes behind its own brace, or behind one inside of it. -/
theorem of_body {place close : Location} (hts : Closed ts)
    (h : CutsAt (mark .leftBrace place :: (ts ++ [mark .rightBrace close])) front loc) :
    (loc = place ∧ ∃ us between list, ts = us ++ between ∧ front = mark .leftBrace place :: us ∧
      Writes us (.list list)) ∨
    ∃ more, front = mark .leftBrace place :: more ∧ CutsAt ts more loc := by
  obtain ⟨before, us, after, list, hsplit, rfl, hus⟩ := h
  cases before with
  | nil =>
    obtain ⟨hfirst, hrest⟩ := List.cons.inj hsplit
    cases hfirst
    obtain ⟨between, hts', -⟩ := prefix_of_closed hts hus.closed hrest
    exact .inl ⟨rfl, us, between, list, hts', rfl, hus⟩
  | cons first before =>
    obtain ⟨rfl, hrest⟩ := List.cons.inj hsplit
    have hcut : CutsAt (ts ++ [mark .rightBrace close]) _ loc :=
      ⟨before, us, after, list, hrest, rfl, hus⟩
    rcases hcut.split hts with hcut | ⟨more, -, hmore⟩
    · exact .inr ⟨_, rfl, hcut⟩
    · obtain ⟨nothing, -, hnothing⟩ := hmore.behind (fun htoken => by cases htoken)
      exact absurd rfl hnothing.ne_nil

/-- Behind the cut nothing is left of a list of statements, and no `else` comes first in it. -/
theorem noElse {list : List Statement} (h : CutsAt ts front loc) (hts : Writes ts (.list list)) :
    NoElse front := by
  have hnext : NoElse (ts ++ []) := hts.noElse rfl
  cases ts with
  | nil => exact absurd rfl h.ne_nil
  | cons t ts =>
    obtain ⟨more, rfl⟩ := h.head
    exact hnext

end CutsAt

/-! ## Parts of statements that are cut off -/

section

variable {inner : Parser (List Statement)} {es ts front : List Located} {e : Expr}
  {made : Body Statement} {loc stop : Location} {error : SyntaxError}

theorem headed_cut {α : Type} {f : Expr → Body Statement → Parser α} {rp : Location}
    (he : Spells es (.expr .disjunction e)) (hbody : body inner ⟨front, stop⟩ = .error error) :
    (do
      let test ← expr
      let _ ← expect .rightParen "')'"
      let made ← body inner
      f test made : Parser α) ⟨es ++ mark .rightParen rp :: front, stop⟩ = .error error := by
  refine (bind_ok (expr_complete he rfl rp stop _)).trans ?_
  refine (bind_ok (expect_cons .rightParen _ rp stop _)).trans ?_
  exact bind_error hbody

theorem cond_cut {lp rp : Location} (he : Spells es (.expr .disjunction e))
    (hbody : body inner ⟨front, stop⟩ = .error error) (n : Nat) :
    cond inner loc (n + 1) ⟨mark .leftParen lp :: (es ++ mark .rightParen rp :: front), stop⟩ =
      .error error := by
  refine (bind_ok (expect_cons .leftParen _ lp stop _)).trans ?_
  exact headed_cut he hbody

theorem cond_else_cut {lp rp place : Location} (he : Spells es (.expr .disjunction e))
    (hbody : body inner ⟨ts ++ word .elseWord place :: front, stop⟩ =
      .ok (made, ⟨word .elseWord place :: front, stop⟩))
    (hhead : ∀ t ∈ front.head?, t.token ≠ .keyword .ifWord)
    (hno : body inner ⟨front, stop⟩ = .error error) (n : Nat) :
    cond inner loc (n + 1) ⟨mark .leftParen lp :: (es ++ mark .rightParen rp ::
      (ts ++ word .elseWord place :: front)), stop⟩ = .error error := by
  refine (bind_ok (expect_cons .leftParen _ lp stop _)).trans ?_
  refine (headed_complete he hbody).trans ?_
  refine (bind_ok (eat_cons _ place stop _)).trans ?_
  refine (bind_ok (eat_of_ne hhead stop)).trans ?_
  exact bind_error hno

theorem cond_elseIf_cut {lp rp place nested : Location} {n : Nat}
    (he : Spells es (.expr .disjunction e))
    (hbody : body inner ⟨ts ++ word .elseWord place :: word .ifWord nested :: front, stop⟩ =
      .ok (made, ⟨word .elseWord place :: word .ifWord nested :: front, stop⟩))
    (hnext : cond inner nested n ⟨front, stop⟩ = .error error) :
    cond inner loc (n + 1) ⟨mark .leftParen lp :: (es ++ mark .rightParen rp ::
      (ts ++ word .elseWord place :: word .ifWord nested :: front)), stop⟩ = .error error := by
  refine (bind_ok (expect_cons .leftParen _ lp stop _)).trans ?_
  refine (headed_complete he hbody).trans ?_
  refine (bind_ok (eat_cons _ place stop _)).trans ?_
  refine (bind_ok (p := here) rfl).trans ?_
  refine (bind_ok (eat_cons _ nested stop _)).trans ?_
  exact bind_error hnext

theorem define_cut {ps : List Located} {list : List Param} {name : String} {place lp rp : Location}
    (hparams : Params ps list) (hnames : (list.map Param.name).Nodup)
    (hbody : body inner ⟨front, stop⟩ = .error error) :
    define inner loc ⟨⟨.name name, place⟩ :: mark .leftParen lp ::
      (ps ++ mark .rightParen rp :: front), stop⟩ = .error error := by
  refine (bind_ok (expectName_cons _ name place stop _)).trans ?_
  refine (bind_ok (expect_cons .leftParen _ lp stop _)).trans ?_
  refine (bind_ok (params_complete hparams hnames _ rp stop)).trans ?_
  refine (bind_ok (expect_cons .rightParen _ rp stop _)).trans ?_
  exact bind_error hbody

theorem repetition_count_cut {lp rp : Location} (he : Spells es (.expr .disjunction e))
    (hbody : body inner ⟨front, stop⟩ = .error error) :
    repetition inner loc ⟨mark .leftParen lp :: (es ++ mark .rightParen rp :: front), stop⟩ =
      .error error := by
  have hcolon : keyed (es ++ mark .rightParen rp :: front) = false :=
    he.not_keyed (.of_mark (by decide) rp _)
  rw [repetition_eq]
  split
  · next heq =>
    rw [heq] at hcolon
    cases hcolon
  · next heq =>
    rw [heq] at hcolon
    cases hcolon
  · exact headed_cut he hbody

theorem repetition_range_cut {name : String} {lp place colon rp : Location}
    (he : Spells es (.expr .disjunction e)) (hbody : body inner ⟨front, stop⟩ = .error error) :
    repetition inner loc ⟨mark .leftParen lp :: ⟨.name name, place⟩ :: mark .colon colon ::
      (es ++ mark .rightParen rp :: front), stop⟩ = .error error := by
  rw [repetition_eq]
  exact headed_cut he hbody

theorem loop_cut {lp rp : Location} (he : Spells es (.expr .disjunction e))
    (hbody : body inner ⟨front, stop⟩ = .error error) :
    loop inner loc ⟨mark .leftParen lp :: (es ++ mark .rightParen rp :: front), stop⟩ =
      .error error := by
  refine (bind_ok (expect_cons .leftParen _ lp stop _)).trans ?_
  exact headed_cut he hbody

/-- A body that ends behind whole statements. -/
theorem body_unclosed {list : List Statement}
    (hinner : inner ⟨ts, stop⟩ = .ok (list, ⟨[], stop⟩)) :
    body inner ⟨mark .leftBrace loc :: ts, stop⟩ = .error ⟨loc, .unclosedBrace⟩ := by
  refine (bind_ok (expect_cons .leftBrace _ loc stop _)).trans ?_
  refine (bind_ok hinner).trans ?_
  exact (bind_ok (p := peek) rfl).trans rfl

/-- A body within which one is cut off. -/
theorem body_cut (hinner : inner ⟨front, stop⟩ = .error error) :
    body inner ⟨mark .leftBrace loc :: front, stop⟩ = .error error :=
  (bind_ok (expect_cons .leftBrace _ loc stop _)).trans (bind_error hinner)

end

/-! ## Statements and programs -/

/-- What is complained of where the tokens of a statement, a body or a list are cut off. -/
def CutShape (ts : List Located) : Shape → Prop
  | .statement _ => ∀ n front loc stop, front.length ≤ n + 1 → CutsAt ts front loc →
    statement (statements n []) ⟨front, stop⟩ = .error ⟨loc, .unclosedBrace⟩ ∧
    -- a condition behind an `else` has a count of its own
    ∀ place more, front = word .ifWord place :: more → ∀ k, more.length ≤ k →
      cond (statements n []) place k ⟨more, stop⟩ = .error ⟨loc, .unclosedBrace⟩
  | .body _ => ∀ n front loc stop, front.length ≤ n + 1 → CutsAt ts front loc →
    body (statements n []) ⟨front, stop⟩ = .error ⟨loc, .unclosedBrace⟩
  | .list made => ∀ n front loc stop, front.length ≤ n → CutsAt ts front loc →
    ∀ seen, (macroNames made ++ seen).Nodup →
      statements n seen ⟨front, stop⟩ = .error ⟨loc, .unclosedBrace⟩

namespace CutShape

variable {ts : List Located} {made : Statement} {t : Located}

theorem of_plain (h : isPlain ts = true) : CutShape ts (.statement made) :=
  fun _ _ _ _ _ hcut => absurd hcut (CutsAt.not_plain h)

/-- A statement that is no condition. -/
theorem of_statement (hfirst : t.token ≠ .keyword .ifWord)
    (h : ∀ n front loc stop, front.length ≤ n + 1 → CutsAt (t :: ts) front loc →
      statement (statements n []) ⟨front, stop⟩ = .error ⟨loc, .unclosedBrace⟩) :
    CutShape (t :: ts) (.statement made) := by
  intro n front loc stop hn hcut
  refine ⟨h n front loc stop hn hcut, ?_⟩
  rintro place more rfl
  obtain ⟨_, hhead⟩ := hcut.head
  cases hhead
  exact absurd rfl hfirst

theorem of_cond {loc : Location}
    (h : ∀ n front place stop, front.length ≤ n → CutsAt ts front place →
      ∀ k, front.length ≤ k + 1 →
        cond (statements n []) loc (k + 1) ⟨front, stop⟩ = .error ⟨place, .unclosedBrace⟩) :
    CutShape (word .ifWord loc :: ts) (.statement made) := by
  intro n front place stop hn hcut
  obtain ⟨more, rfl, hmore⟩ := hcut.behind (fun htoken => by cases htoken)
  rw [List.length_cons] at hn
  have hcond : ∀ k, more.length ≤ k →
      cond (statements n []) loc k ⟨more, stop⟩ = .error ⟨place, .unclosedBrace⟩ := by
    intro k hk
    have hpos := List.length_pos_iff.2 hmore.front_ne_nil
    obtain ⟨k, rfl⟩ : ∃ k', k = k' + 1 := ⟨k - 1, by omega⟩
    exact h n more place stop (by omega) hmore k hk
  refine ⟨hcond _ (Nat.le_refl _), fun place' more' heq k hk => ?_⟩
  cases heq
  exact hcond k hk

end CutShape

theorem Writes.cut {ts : List Located} {shape : Shape} (h : Writes ts shape) :
    CutShape ts shape := by
  induction h with
  | empty loc => exact .of_plain rfl
  | @block ts made h ih =>
    obtain ⟨loc, more, rfl⟩ := h.body_head
    refine .of_statement (fun htoken => (by cases htoken)) fun n front place stop hn hcut => ?_
    obtain ⟨rest, rfl⟩ := hcut.head
    change (do return .block (← Script.body (statements n [])) : Parser Statement) _ = _
    exact bind_error (ih n _ place stop hn hcut)
  | define name loc place lp rp hparams hnames h ih =>
    refine .of_statement (fun htoken => (by cases htoken)) fun n front mark' stop hn hcut => ?_
    obtain ⟨_, rfl, hname⟩ := hcut.behind (fun htoken => by cases htoken)
    obtain ⟨_, rfl, hhead⟩ := hname.behind (fun htoken => by cases htoken)
    obtain ⟨more, rfl, hmore⟩ := hhead.headed hparams.isPlain
    simp only [List.length_cons, List.length_append] at hn
    exact define_cut hparams hnames (ih n more mark' stop (by omega) hmore)
  | cond loc lp rp he h ih =>
    refine .of_cond fun n front place stop hn hcut k hk => ?_
    obtain ⟨more, rfl, hmore⟩ := hcut.headed he.isPlain
    simp only [List.length_cons, List.length_append] at hn
    exact cond_cut he (ih n more place stop (by omega) hmore) k
  | @condElse es ts us e yes no loc lp rp place he h hno ih ihno =>
    refine .of_cond fun n front mark' stop hn hcut k hk => ?_
    obtain ⟨more, rfl, hmore⟩ := hcut.headed he.isPlain
    simp only [List.length_cons, List.length_append] at hn
    rcases hmore.split h.closed with hinside | ⟨rest, rfl, hrest⟩
    · exact cond_cut he (ih n more mark' stop (by omega) hinside) k
    · obtain ⟨other, rfl, hother⟩ := hrest.behind (fun htoken => by cases htoken)
      simp only [List.length_cons, List.length_append] at hn
      refine cond_else_cut he (h.complete n (by omega) _ stop) ?_
        (ihno n other mark' stop (by omega) hother) k
      obtain ⟨place', more', rfl⟩ := hno.body_head
      obtain ⟨_, rfl⟩ := hother.head
      intro t ht htoken
      cases ht
      cases htoken
  | @condElseIf es ts us e yes next loc lp rp place nested he h hnext ih ihnext =>
    refine .of_cond fun n front mark' stop hn hcut k hk => ?_
    obtain ⟨more, rfl, hmore⟩ := hcut.headed he.isPlain
    simp only [List.length_cons, List.length_append] at hn hk
    rcases hmore.split h.closed with hinside | ⟨rest, rfl, hrest⟩
    · exact cond_cut he (ih n more mark' stop (by omega) hinside) k
    · obtain ⟨other, rfl, hother⟩ := hrest.behind (fun htoken => by cases htoken)
      obtain ⟨tail, rfl⟩ := hother.head
      simp only [List.length_cons, List.length_append] at hn hk
      have hyes := h.complete n (by omega) (word .elseWord place :: word .ifWord nested :: tail)
        stop
      have hchain := (ihnext n _ mark' stop (by rw [List.length_cons]; omega) hother).2
      exact cond_elseIf_cut he hyes (hchain nested tail rfl k (by omega))
  | repeatCount loc lp rp he h ih =>
    refine .of_statement (fun htoken => (by cases htoken)) fun n front place stop hn hcut => ?_
    obtain ⟨_, rfl, hhead⟩ := hcut.behind (fun htoken => by cases htoken)
    obtain ⟨more, rfl, hmore⟩ := hhead.headed he.isPlain
    simp only [List.length_cons, List.length_append] at hn
    exact repetition_count_cut he (ih n more place stop (by omega) hmore)
  | repeatRange name loc lp place colon rp he h ih =>
    refine .of_statement (fun htoken => (by cases htoken)) fun n front mark' stop hn hcut => ?_
    have hhead : isPlain [word .repeatWord loc, mark .leftParen lp, ⟨.name name, place⟩,
        mark .colon colon] = true := rfl
    obtain ⟨_, rfl, hinside⟩ := hcut.behind_plain hhead
    obtain ⟨_, rfl, hclose⟩ := hinside.behind_plain he.isPlain
    obtain ⟨more, rfl, hmore⟩ := hclose.behind (fun htoken => by cases htoken)
    simp only [List.length_cons, List.length_append] at hn
    exact repetition_range_cut he (ih n more mark' stop (by omega) hmore)
  | loop loc lp rp he h ih =>
    refine .of_statement (fun htoken => (by cases htoken)) fun n front place stop hn hcut => ?_
    obtain ⟨_, rfl, hhead⟩ := hcut.behind (fun htoken => by cases htoken)
    obtain ⟨more, rfl, hmore⟩ := hhead.headed he.isPlain
    simp only [List.length_cons, List.length_append] at hn
    exact loop_cut he (ih n more place stop (by omega) hmore)
  | assert loc lp rp semicolon he => exact .of_plain (by simp [he.isPlain, isOuter])
  | assertMessage message loc lp comma place rp semicolon he =>
    exact .of_plain (by simp [he.isPlain, isOuter])
  | bind name loc place assign semicolon he => exact .of_plain (by simp [he.isPlain, isOuter])
  | assign name loc assign semicolon he => exact .of_plain (by simp [he.isPlain, isOuter])
  | command name loc lp rp semicolon hargs =>
    exact .of_plain (by simp [hargs.isPlain, isOuter])
  | @body ts list loc close h hnames ih =>
    intro n front place stop hn hcut
    rcases hcut.of_body h.closed with ⟨rfl, us, between, inside, rfl, rfl, hus⟩ | ⟨more, rfl, hmore⟩
    · -- The cut comes behind the brace of this body; no macro is declared twice in front of it.
      have hinside := (hus.macroNames_prefix h).sublist.nodup hnames
      have hread := hus.complete n (Nat.le_of_succ_le_succ hn) [] [] stop rfl
        (by rwa [List.append_nil])
      rw [List.append_nil] at hread
      exact body_unclosed hread
    · exact body_cut (ih n more place stop (Nat.le_of_succ_le_succ hn) hmore []
        (by rwa [List.append_nil]))
  | nil => exact fun n front place stop hn hcut => absurd rfl hcut.ne_nil
  | @cons ts us first others h hrest ih ihrest =>
    intro n front place stop hn hcut seen hnames
    obtain ⟨t, more, rfl, hbrace, -⟩ := h.head
    obtain ⟨tail, hfront⟩ := hcut.head
    have hpos := List.length_pos_iff.2 hcut.front_ne_nil
    obtain ⟨n, rfl⟩ : ∃ k, n = k + 1 := ⟨n - 1, by omega⟩
    rw [statements_succ]
    have hopen : ¬ closes front = true := by
      rw [hfront]
      exact fun heq => hbrace (of_decide_eq_true heq)
    refine (if_neg hopen).trans ?_
    rcases hcut.split h.closed with hinside | ⟨rest, rfl, hbehind⟩
    · exact bind_error (ih n front place stop hn hinside).1
    · have hnext : NoElse rest := hbehind.noElse hrest
      rw [List.length_append] at hn
      have hfirst := (h.complete n (by omega) rest stop hnext).1
      rw [macroNames_cons, List.append_assoc] at hnames
      have hothers := (List.perm_append_comm_assoc _ _ _).nodup_iff.1 hnames
      have hseen' : (macroNames [first] ++ seen).Nodup := (List.nodup_append.1 hothers).2.1
      have hseen : seen.Nodup := (List.nodup_append.1 hseen').2.1
      refine (bind_ok hfirst).trans ?_
      refine (bind_ok ((declare_eq_ok hseen).2 ⟨rfl, hseen', rfl⟩)).trans ?_
      rw [List.length_cons] at hn
      exact bind_error (ihrest n rest place stop (by omega) hbehind _ hothers)

/-- A program that is cut off is refused at the brace behind which the cut comes. -/
theorem program_cut {tokens front : List Located} {made : Program} {loc : Location}
    (h : Derives tokens made) (hcut : CutsAt tokens front loc) (stop : Location) :
    program ⟨front, stop⟩ = .error ⟨loc, .unclosedBrace⟩ := by
  refine (bind_ok (p := remaining) rfl).trans (bind_error ?_)
  exact h.1.cut front.length front loc stop (Nat.le_refl _) hcut [] (by
    rw [List.append_nil]
    exact h.2)

/-- The last token is a semicolon or a closing brace. -/
def Ended (ts : List Located) : Prop :=
  ∃ more loc, ts = more ++ [mark .semicolon loc] ∨ ts = more ++ [mark .rightBrace loc]

namespace Ended

variable {ts : List Located}

theorem semicolon (loc : Location) : Ended [mark .semicolon loc] := ⟨[], loc, .inl rfl⟩

theorem rightBrace (loc : Location) : Ended [mark .rightBrace loc] := ⟨[], loc, .inr rfl⟩

theorem append (h : Ended ts) (us : List Located) : Ended (us ++ ts) := by
  obtain ⟨more, loc, rfl | rfl⟩ := h
  · exact ⟨us ++ more, loc, .inl (List.append_assoc ..).symm⟩
  · exact ⟨us ++ more, loc, .inr (List.append_assoc ..).symm⟩

theorem cons (h : Ended ts) (t : Located) : Ended (t :: ts) := h.append [t]

end Ended

/-- Statements and bodies end so, and so do lists unless they are empty. -/
def EndShape (ts : List Located) : Shape → Prop
  | .statement _ => Ended ts
  | .body _ => Ended ts
  | .list _ => ts = [] ∨ Ended ts

theorem Writes.ended {ts : List Located} {shape : Shape} (h : Writes ts shape) :
    EndShape ts shape := by
  induction h with
  | empty loc => exact .semicolon loc
  | block _ ih => exact ih
  | define _ _ _ _ _ _ _ _ ih => exact ((((ih.cons _).append _).cons _).cons _).cons _
  | cond _ _ _ _ _ ih => exact (((ih.cons _).append _).cons _).cons _
  | condElse _ _ _ _ _ _ _ _ ihno =>
    exact (((((ihno.cons _).append _).cons _).append _).cons _).cons _
  | condElseIf _ _ _ _ _ _ _ _ _ ihnext =>
    exact (((((ihnext.cons _).append _).cons _).append _).cons _).cons _
  | repeatCount _ _ _ _ _ ih => exact (((ih.cons _).append _).cons _).cons _
  | repeatRange _ _ _ _ _ _ _ _ ih =>
    exact (((((ih.cons _).append _).cons _).cons _).cons _).cons _
  | loop _ _ _ _ _ ih => exact (((ih.cons _).append _).cons _).cons _
  | assert _ _ rp semicolon _ =>
    exact ((((Ended.semicolon semicolon).append [mark .rightParen rp]).append _).cons _).cons _
  | assertMessage message _ _ comma place rp semicolon _ =>
    exact ((((Ended.semicolon semicolon).append
      [mark .comma comma, ⟨.text message, place⟩, mark .rightParen rp]).append _).cons _).cons _
  | bind _ _ _ _ semicolon _ =>
    exact ((((Ended.semicolon semicolon).append _).cons _).cons _).cons _
  | assign _ _ _ semicolon _ => exact (((Ended.semicolon semicolon).append _).cons _).cons _
  | command _ _ _ rp semicolon _ =>
    exact ((((Ended.semicolon semicolon).append [mark .rightParen rp]).append _).cons _).cons _
  | body _ close _ _ _ => exact ((Ended.rightBrace close).append _).cons _
  | nil => exact .inl rfl
  | cons _ _ ih ihrest =>
    rcases ihrest with rfl | hlast
    · rw [List.append_nil]
      exact .inr ih
    · exact .inr (hlast.append _)

end Grammar

/-! ## Texts -/

/-- The front of a text that begins at a place, up to and with the character at another place. -/
def Location.through (place : Location) : Location → List Char → List Char
  | _, [] => []
  | loc, c :: cs => c :: if loc = place then [] else place.through (loc.next c) cs

/-- The text up to and with the character at a place. -/
def cutBehind (source : String) (place : Location) : String :=
  String.ofList (place.through .start source.toList)

theorem Location.through_append (loc : Location) (front : List Char) (c : Char)
    (back : List Char) : (loc.after front).through loc (front ++ c :: back) = front ++ [c] := by
  induction front generalizing loc with
  | nil =>
    rw [List.nil_append, through]
    exact congrArg (c :: ·) (if_pos rfl)
  | cons d front ih =>
    have hbefore := before_after loc (List.cons_ne_nil d front)
    have hne : loc ≠ loc.after (d :: front) := by
      intro heq
      rw [← heq] at hbefore
      exact before_irrefl loc hbefore
    rw [List.cons_append, through, if_neg hne]
    exact congrArg (d :: ·) (ih (loc.next d))

/-- Behind a token of a single character the tokens up to it are read. -/
theorem tokenize_cutBehind {source : String} {list : TokenList} (h : tokenize source = .ok list)
    {ts us : List Located} {loc : Location} {s : Symbol} {c : Char}
    (hs : s.spelling.toList = [c]) (htokens : list.tokens = ts ++ ⟨.symbol s, loc⟩ :: us) :
    ∃ stop, tokenize (cutBehind source loc) = .ok ⟨ts ++ [⟨.symbol s, loc⟩], stop⟩ := by
  obtain ⟨cuts, hcuts, hlist⟩ := reads_of_tokenize h
  rw [hlist] at htokens
  obtain ⟨front, text, middle, hreads, rfl, hloc, hspelled⟩ := hcuts.up_to_token htokens
  obtain rfl : text = [c] := by
    rw [← hs]
    generalize htoken : Token.symbol s = token at hspelled
    cases hspelled <;> cases htoken
    rfl
  have hsource := hreads.split
  have htexts : Lexer.Cut.texts (front ++ [⟨some (.symbol s), [c]⟩]) =
      Lexer.Cut.texts front ++ [c] := Lexer.Cut.texts_append ..
  have hcut : cutBehind source loc = String.ofList (Lexer.Cut.texts front ++ [c]) := by
    rw [cutBehind, ← hsource, htexts, List.append_assoc]
    dsimp only at hloc
    rw [hloc]
    exact congrArg String.ofList (Location.through_append ..)
  have hread := hreads.before_end.tokenize
  rw [htexts, ← hcut, Lexer.Cut.tokens_append, ← hloc] at hread
  exact ⟨_, hread⟩

/-! ## Whole scripts -/

open Grammar

/-- What stands before a cut ends with a token of one character. -/
theorem last_before_cut {us : List Located} {loc : Location} {last : Located}
    {list : List Statement} (hus : Writes us (.list list))
    (hlast : (mark .leftBrace loc :: us).getLast? = some last) (before : List Located) :
    ∃ ts s c, before ++ mark .leftBrace loc :: us = ts ++ [⟨.symbol s, last.loc⟩] ∧
      s.spelling.toList = [c] := by
  rcases hus.ended with rfl | ⟨more, place, rfl | rfl⟩
  · cases hlast
    exact ⟨before, .leftBrace, '\x7b', rfl, rfl⟩
  · rw [← List.cons_append, List.getLast?_concat] at hlast
    cases hlast
    refine ⟨before ++ mark .leftBrace loc :: more, .semicolon, ';', ?_, rfl⟩
    rw [List.append_assoc, List.cons_append]
  · rw [← List.cons_append, List.getLast?_concat] at hlast
    cases hlast
    refine ⟨before ++ mark .leftBrace loc :: more, .rightBrace, '\x7d', ?_, rfl⟩
    rw [List.append_assoc, List.cons_append]

/-- Braces that are not closed are reported where the innermost of them opens. If a text is refused
in these words, then each closing brace among its tokens has its partner, some opening ones have
none, and the last of these is where the error is placed. And a script that is cut off inside of a
block, right behind the brace that opens it or behind a whole statement in it, is refused in these
words at that brace, however deep the block lies and whatever used to follow. -/
theorem unclosed_brace_innermost (source : String) :
    (∀ error, parse source = .error error → error.message = "unclosed '\x7b'" →
      ∃ list outer, tokenize source = .ok list ∧
        openBraces [] list.tokens = some (error.loc :: outer)) ∧
    ∀ program list, parse source = .ok program → tokenize source = .ok list →
      ∀ before loc us after statements last,
        list.tokens = before ++ mark .leftBrace loc :: (us ++ after) →
        Writes us (.list statements) → (mark .leftBrace loc :: us).getLast? = some last →
        ∃ front error outer,
          tokenize (cutBehind source last.loc) = .ok front ∧
          front.tokens = before ++ mark .leftBrace loc :: us ∧
          openBraces [] front.tokens = some (loc :: outer) ∧
          parse (cutBehind source last.loc) = .error error ∧
          error.message = "unclosed '\x7b'" ∧ error.loc = loc := by
  refine ⟨fun error h hmessage => ?_, ?_⟩
  · exact openBraces_of_unclosed h (SyntaxFault.eq_unclosedBrace hmessage)
  intro program list hprogram hlist before loc us after statements last htokens hus hlast
  obtain ⟨ts, s, c, hfront, hs⟩ := last_before_cut hus hlast before
  have hsplit : list.tokens = ts ++ ⟨.symbol s, last.loc⟩ :: after := by
    rw [htokens, ← List.cons_append, ← List.append_assoc, hfront, List.append_assoc]
    rfl
  obtain ⟨stop, hread⟩ := tokenize_cutBehind hlist hs hsplit
  rw [← hfront] at hread
  obtain ⟨list', hlist', hderives⟩ := parse_eq_ok.1 hprogram
  cases hlist.symm.trans hlist'
  have hcut : CutsAt list.tokens (before ++ mark .leftBrace loc :: us) loc :=
    ⟨before, us, after, statements, htokens, rfl, hus⟩
  have herror := parse_eq_error.2 (.inr ⟨_, hread, program_cut hderives hcut stop⟩)
  obtain ⟨front, outer, hfront', hopen⟩ := openBraces_of_unclosed herror rfl
  cases hread.symm.trans hfront'
  exact ⟨_, _, outer, hread, rfl, hopen, herror, rfl, rfl⟩

/-- The cut is made behind a statement, and the block in which the statement stands lies in that of
a condition. -/
theorem unclosed_brace_innermost_of_nested :
    ∃ front error outer,
      cutBehind "if (ok()) \x7b say(1); \x7b go(); halt(2); \x7d \x7d" ⟨1, 27⟩ =
        "if (ok()) \x7b say(1); \x7b go();" ∧
      tokenize "if (ok()) \x7b say(1); \x7b go();" = .ok front ∧
      openBraces [] front.tokens = some (⟨1, 21⟩ :: outer) ∧
      parse "if (ok()) \x7b say(1); \x7b go();" = .error error ∧ error.loc = ⟨1, 21⟩ := by
  have hcut : cutBehind "if (ok()) \x7b say(1); \x7b go(); halt(2); \x7d \x7d" ⟨1, 27⟩ =
      "if (ok()) \x7b say(1); \x7b go();" := by decide +kernel
  have hok : (parse "if (ok()) \x7b say(1); \x7b go(); halt(2); \x7d \x7d").toBool = true := by
    decide +kernel
  have hmiddle : (tokenize "if (ok()) \x7b say(1); \x7b go(); halt(2); \x7d \x7d").toOption.map
      (fun list => (list.tokens.drop 12).take 5) =
        some [mark .leftBrace ⟨1, 21⟩, ⟨.name "go", ⟨1, 23⟩⟩, mark .leftParen ⟨1, 25⟩,
          mark .rightParen ⟨1, 26⟩, mark .semicolon ⟨1, 27⟩] := by
    decide +kernel
  have hus : Writes [⟨.name "go", ⟨1, 23⟩⟩, mark .leftParen ⟨1, 25⟩, mark .rightParen ⟨1, 26⟩,
      mark .semicolon ⟨1, 27⟩] (.list [.command "go" [] ⟨1, 23⟩]) :=
    .cons (.command "go" ⟨1, 23⟩ ⟨1, 25⟩ ⟨1, 26⟩ ⟨1, 27⟩ .noArgs) .nil
  cases hparse : parse "if (ok()) \x7b say(1); \x7b go(); halt(2); \x7d \x7d" with
  | error error =>
    rw [hparse] at hok
    cases hok
  | ok program =>
    obtain ⟨list, hlist, -⟩ := parse_eq_ok.1 hparse
    rw [hlist] at hmiddle
    have htokens : list.tokens = list.tokens.take 12 ++
        ((list.tokens.drop 12).take 5 ++ (list.tokens.drop 12).drop 5) := by
      rw [List.take_append_drop, List.take_append_drop]
    have hmiddle : (list.tokens.drop 12).take 5 = _ := Option.some.inj hmiddle
    rw [hmiddle] at htokens
    obtain ⟨front, error, outer, hread, -, hopen, herror, -, hloc⟩ :=
      (unclosed_brace_innermost _).2 program list hparse hlist _ _ _ _ _
        (mark .semicolon ⟨1, 27⟩) htokens hus rfl
    rw [hcut] at hread herror
    exact ⟨front, error, outer, hcut, hread, hopen, herror, hloc⟩

end BlockScript
