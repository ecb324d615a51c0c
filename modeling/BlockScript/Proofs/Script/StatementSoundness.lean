import BlockScript.Proofs.Script.ExprSoundness

/-!
# Statements that are read are spelled

The same for statements, bodies and whole programs. Two names that may not meet, of macros in a list
and of parameters in a macro, never do in what is read.
-/
namespace BlockScript
set_option autoImplicit false

theorem ParamType.ofName?_eq_some {spelling : String} {type : ParamType} :
    ofName? spelling = some type ↔ spelling = type.name := by
  constructor
  · intro h
    have hname := List.find?_some (p := fun type : ParamType => type.name = spelling) h
    exact (of_decide_eq_true hname).symm
  · rintro rfl
    cases type <;> decide

namespace Grammar

open BlockScript.Parser BlockScript.Script

/-- Tokens of the shape stand in front of what is left. -/
def Makes (shape : Shape) (input rest : TokenList) : Prop :=
  ∃ ts, Takes input ts rest ∧ Writes ts shape

/-- The tokens in front of what is left go on to a statement from its first one. -/
def GoesOn (first : Located) (made : Statement) (input rest : TokenList) : Prop :=
  ∃ ts, Takes input ts rest ∧ Writes (first :: ts) (.statement made)

theorem GoesOn.makes {first : Located} {made : Statement} {ts : List Located} {stop : Location}
    {rest : TokenList} (h : GoesOn first made ⟨ts, stop⟩ rest) :
    Makes (.statement made) ⟨first :: ts, stop⟩ rest := by
  obtain ⟨us, hus, hwrites⟩ := h
  exact ⟨_, hus.cons, hwrites⟩

/-- What a parser of lists takes spells its answer, and no macro is declared twice. -/
def SoundList (inner : Parser (List Statement)) : Prop :=
  ∀ input list rest, inner input = .ok (list, rest) →
    Makes (.list list) input rest ∧ (macroNames list).Nodup

variable {inner : Parser (List Statement)} {input rest : TokenList}

/-! ## Parts of statements -/

theorem body_sound (hinner : SoundList inner) {made : Body Statement}
    (h : body inner input = .ok (made, rest)) : Makes (.body made) input rest := by
  obtain ⟨loc, afterOpen, hopen, h⟩ := bind_eq_ok h
  obtain ⟨list, afterList, hlist, h⟩ := bind_eq_ok h
  obtain ⟨⟨ts, hts, hwrites⟩, hnames⟩ := hinner _ _ _ hlist
  obtain ⟨found, middle, hfound, h⟩ := bind_eq_ok h
  obtain ⟨-, rfl⟩ := peek_eq_ok hfound
  cases found with
  | none =>
    change Except.error _ = _ at h
    cases h
  | some token =>
    obtain ⟨close, final, hclose, h⟩ := bind_eq_ok h
    obtain ⟨rfl, rfl⟩ := pure_eq_ok h
    exact ⟨_, (expect_eq_ok.1 hopen).append (hts.append (expect_eq_ok.1 hclose)),
      .body loc close hwrites hnames⟩

theorem nodup_names_concat (before : List Param) (param : Param) :
    ((before ++ [param]).map Param.name).Nodup ↔
      (before.map Param.name).Nodup ∧
        ¬ before.any (fun other => other.name = param.name) = true := by
  rw [List.map_append, List.nodup_append]
  simp

theorem paramsFrom_sound {n : Nat} {before params : List Param}
    (hbefore : (before.map Param.name).Nodup)
    (h : paramsFrom n before input = .ok (params, rest)) :
    ∃ ts more, params = before ++ more ∧ more ≠ [] ∧ Takes input ts rest ∧ Params ts more ∧
      (params.map Param.name).Nodup := by
  induction n generalizing before input with
  | zero =>
    change Except.error _ = _ at h
    cases h
  | succ n ih =>
    obtain ⟨typeLoc, start, hstart, h⟩ := bind_eq_ok h
    cases hstart
    obtain ⟨typeName, afterType, htypeName, h⟩ := bind_eq_ok h
    obtain ⟨typeLoc, htypeLoc⟩ := expectName_eq_ok.1 htypeName
    cases htype : ParamType.ofName? typeName with
    | none =>
      rw [htype] at h
      change Except.error _ = _ at h
      cases h
    | some type =>
      rw [htype] at h
      obtain rfl := ParamType.ofName?_eq_some.1 htype
      obtain ⟨loc, start, hstart, h⟩ := bind_eq_ok h
      cases hstart
      obtain ⟨name, afterName, hname, h⟩ := bind_eq_ok h
      obtain ⟨loc, hloc⟩ := expectName_eq_ok.1 hname
      split at h
      · change Except.error _ = _ at h
        cases h
      · next hfresh =>
        have hnames := (nodup_names_concat before ⟨name, type⟩).2 ⟨hbefore, hfresh⟩
        obtain ⟨comma, afterComma, hcomma, h⟩ := bind_eq_ok h
        cases comma with
        | true =>
          obtain ⟨place, hplace⟩ := eat_eq_true.1 hcomma
          obtain ⟨ts, more, rfl, hmore, hts, hparams, hall⟩ := ih hnames h
          exact ⟨_, ⟨name, type⟩ :: more, List.append_assoc .., List.cons_ne_nil _ _,
            htypeLoc.append (hloc.append (hplace.append hts)),
            .more type name typeLoc loc place hmore hparams, hall⟩
        | false =>
          obtain ⟨-, rfl⟩ := eat_eq_false.1 hcomma
          obtain ⟨rfl, rfl⟩ := pure_eq_ok h
          exact ⟨_, [⟨name, type⟩], rfl, List.cons_ne_nil _ _, htypeLoc.append hloc,
            .last type name typeLoc loc, hnames⟩

theorem params_sound {list : List Param} (h : params input = .ok (list, rest)) :
    ∃ ts, Takes input ts rest ∧ Params ts list ∧ (list.map Param.name).Nodup := by
  obtain ⟨found, middle, hfound, h⟩ := bind_eq_ok h
  obtain ⟨-, rfl⟩ := peek_eq_ok hfound
  split at h
  · obtain ⟨rfl, rfl⟩ := pure_eq_ok h
    exact ⟨[], .nil _, .none, List.nodup_nil⟩
  · have hnil : (([] : List Param).map Param.name).Nodup := List.nodup_nil
    obtain ⟨ts, more, rfl, -, hts, hparams, hnames⟩ :=
      paramsFrom_sound (n := input.tokens.length) hnil h
    exact ⟨ts, hts, hparams, hnames⟩

theorem define_sound (hinner : SoundList inner) {loc : Location} {made : Statement}
    (h : define inner loc input = .ok (made, rest)) :
    GoesOn (word .macroWord loc) made input rest := by
  obtain ⟨name, afterName, hname, h⟩ := bind_eq_ok h
  obtain ⟨place, hplace⟩ := expectName_eq_ok.1 hname
  obtain ⟨lp, afterOpen, hlp, h⟩ := bind_eq_ok h
  obtain ⟨list, afterParams, hlist, h⟩ := bind_eq_ok h
  obtain ⟨ps, hps, hparams, hnames⟩ := params_sound hlist
  obtain ⟨rp, afterClose, hrp, h⟩ := bind_eq_ok h
  obtain ⟨made, final, hmade, h⟩ := bind_eq_ok h
  obtain ⟨rfl, rfl⟩ := pure_eq_ok h
  obtain ⟨ts, hts, hbody⟩ := body_sound hinner hmade
  exact ⟨_, hplace.append ((expect_eq_ok.1 hlp).append (hps.append
    ((expect_eq_ok.1 hrp).append hts))), .define name loc place lp rp hparams hnames hbody⟩

/-- The rest of the head of a conditional or a loop, and its body. -/
theorem headed_sound (hinner : SoundList inner) {α : Type} {f : Expr → Body Statement → Parser α}
    {a : α}
    (h : (do
      let test ← expr
      let _ ← expect .rightParen "')'"
      let made ← body inner
      f test made : Parser α) input = .ok (a, rest)) :
    ∃ rp es ts test made middle,
      Takes input (es ++ mark .rightParen rp :: ts) middle ∧
      Spells es (.expr .disjunction test) ∧ Writes ts (.body made) ∧
      f test made middle = .ok (a, rest) := by
  obtain ⟨test, afterTest, htest, h⟩ := bind_eq_ok h
  obtain ⟨rp, afterClose, hrp, h⟩ := bind_eq_ok h
  obtain ⟨made, middle, hmade, h⟩ := bind_eq_ok h
  obtain ⟨es, hes, hspells, -⟩ := expr_sound _ _ _ htest
  obtain ⟨ts, hts, hbody⟩ := body_sound hinner hmade
  exact ⟨rp, es, ts, test, made, middle, hes.append ((expect_eq_ok.1 hrp).append hts), hspells,
    hbody, h⟩

theorem cond_sound (hinner : SoundList inner) {n : Nat} {loc : Location} {made : Statement}
    (h : cond inner loc n input = .ok (made, rest)) :
    GoesOn (word .ifWord loc) made input rest := by
  induction n generalizing loc input made with
  | zero =>
    change Except.error _ = _ at h
    cases h
  | succ n ih =>
    obtain ⟨lp, afterOpen, hlp, h⟩ := bind_eq_ok h
    obtain ⟨rp, es, ts, test, yes, middle, hhead, hspells, hyes, h⟩ := headed_sound hinner h
    have htakes := (expect_eq_ok.1 hlp).append hhead
    obtain ⟨other, afterElse, hother, h⟩ := bind_eq_ok h
    cases other with
    | false =>
      obtain ⟨-, rfl⟩ := eat_eq_false.1 hother
      obtain ⟨rfl, rfl⟩ := pure_eq_ok h
      exact ⟨_, htakes, .cond loc lp rp hspells hyes⟩
    | true =>
      obtain ⟨place, hplace⟩ := eat_eq_true.1 hother
      obtain ⟨nested, start, hstart, h⟩ := bind_eq_ok h
      obtain ⟨hnested, rfl⟩ := here_eq_ok hstart
      obtain ⟨again, afterIf, hagain, h⟩ := bind_eq_ok h
      cases again with
      | true =>
        obtain ⟨place', hplace'⟩ := eat_eq_true.1 hagain
        obtain ⟨next, final, hnext, h⟩ := bind_eq_ok h
        obtain ⟨rfl, rfl⟩ := pure_eq_ok h
        obtain ⟨us, hus, hwrites⟩ := ih hnext
        obtain rfl : place' = nested := hplace'.here_eq.symm.trans hnested
        have hwhole := htakes.append (hplace.append (hplace'.append hus))
        refine ⟨_, ?_, .condElseIf loc lp rp place place' hspells hyes hwrites⟩
        simpa using hwhole
      | false =>
        obtain ⟨-, rfl⟩ := eat_eq_false.1 hagain
        obtain ⟨no, final, hno, h⟩ := bind_eq_ok h
        obtain ⟨rfl, rfl⟩ := pure_eq_ok h
        obtain ⟨us, hus, hwrites⟩ := body_sound hinner hno
        have hwhole := htakes.append (hplace.append hus)
        refine ⟨_, ?_, .condElse loc lp rp place hspells hyes hwrites⟩
        simpa using hwhole

theorem repetition_eq (loc lp stop : Location) (ts : List Located) :
    repetition inner loc ⟨mark .leftParen lp :: ts, stop⟩ =
      match ts with
      | ⟨.name name, place⟩ :: ⟨.symbol .colon, _⟩ :: more =>
        (do
          let last ← expr
          let _ ← expect .rightParen "')'"
          return .repeatRange name (.int 0 place) last none (← body inner) loc :
            Parser Statement) ⟨more, stop⟩
      | ⟨.axis _ _ spelling, _⟩ :: ⟨.symbol .colon, _⟩ :: _ =>
        (fail (.selectorAsName spelling "a loop variable") : Parser Statement) ⟨ts, stop⟩
      | _ =>
        (do
          let count ← expr
          let _ ← expect .rightParen "')'"
          return .repeatCount count (← body inner) loc : Parser Statement) ⟨ts, stop⟩ := by
  refine (bind_ok (expect_cons .leftParen _ lp stop ts)).trans ?_
  rcases ts with _ | ⟨⟨token, place⟩, _ | ⟨⟨second, place'⟩, more⟩⟩
  · rfl
  · cases token <;> rfl
  · cases token with
    | name spelling =>
      cases second with
      | symbol s => cases s <;> rfl
      | _ => rfl
    | axis axis magnitude spelling =>
      cases second with
      | symbol s => cases s <;> rfl
      | _ => rfl
    | _ => rfl

theorem repetition_sound (hinner : SoundList inner) {loc : Location} {made : Statement}
    (h : repetition inner loc input = .ok (made, rest)) :
    GoesOn (word .repeatWord loc) made input rest := by
  obtain ⟨lp, ⟨tokens, stop⟩, hlp, -⟩ := bind_eq_ok h
  have hopen := expect_eq_ok.1 hlp
  rw [hopen.input_eq] at h
  replace h := (repetition_eq loc lp stop tokens).symm.trans h
  split at h
  · next name place colon more =>
    obtain ⟨rp, es, ts, test, made, middle, hhead, hspells, hmade, h⟩ := headed_sound hinner h
    obtain ⟨rfl, rfl⟩ := pure_eq_ok h
    exact ⟨_, hopen.append hhead.cons.cons,
      .repeatRange name loc lp place colon rp hspells hmade⟩
  · change Except.error _ = _ at h
    cases h
  · obtain ⟨rp, es, ts, test, made, middle, hhead, hspells, hmade, h⟩ := headed_sound hinner h
    obtain ⟨rfl, rfl⟩ := pure_eq_ok h
    exact ⟨_, hopen.append hhead, .repeatCount loc lp rp hspells hmade⟩

theorem loop_sound (hinner : SoundList inner) {loc : Location} {made : Statement}
    (h : loop inner loc input = .ok (made, rest)) :
    GoesOn (word .whileWord loc) made input rest := by
  obtain ⟨lp, afterOpen, hlp, h⟩ := bind_eq_ok h
  obtain ⟨rp, es, ts, test, made, middle, hhead, hspells, hmade, h⟩ := headed_sound hinner h
  obtain ⟨rfl, rfl⟩ := pure_eq_ok h
  exact ⟨_, (expect_eq_ok.1 hlp).append hhead, .loop loc lp rp hspells hmade⟩

theorem assertion_sound {loc : Location} {made : Statement}
    (h : assertion loc input = .ok (made, rest)) :
    GoesOn (word .assertWord loc) made input rest := by
  obtain ⟨lp, afterOpen, hlp, h⟩ := bind_eq_ok h
  obtain ⟨test, afterTest, htest, h⟩ := bind_eq_ok h
  obtain ⟨es, hes, hspells, -⟩ := expr_sound _ _ _ htest
  obtain ⟨comma, afterComma, hcomma, h⟩ := bind_eq_ok h
  cases comma with
  | true =>
    obtain ⟨place, hplace⟩ := eat_eq_true.1 hcomma
    obtain ⟨message, afterMessage, hmessage, h⟩ := bind_eq_ok h
    obtain ⟨text, afterText, htext, hmessage⟩ :=
      bind_eq_ok (p := expectText "assertion message string") hmessage
    obtain ⟨rfl, rfl⟩ := pure_eq_ok hmessage
    obtain ⟨textLoc, htextLoc⟩ := expectText_eq_ok.1 htext
    obtain ⟨rp, afterClose, hrp, h⟩ := bind_eq_ok h
    obtain ⟨semicolon, final, hsemicolon, h⟩ := bind_eq_ok h
    obtain ⟨rfl, rfl⟩ := pure_eq_ok h
    exact ⟨_, (expect_eq_ok.1 hlp).append (hes.append (hplace.append (htextLoc.append
      ((expect_eq_ok.1 hrp).append (expect_eq_ok.1 hsemicolon))))),
      .assertMessage text loc lp place textLoc rp semicolon hspells⟩
  | false =>
    obtain ⟨-, rfl⟩ := eat_eq_false.1 hcomma
    obtain ⟨message, afterMessage, hmessage, h⟩ := bind_eq_ok h
    obtain ⟨rfl, rfl⟩ := pure_eq_ok hmessage
    obtain ⟨rp, afterClose, hrp, h⟩ := bind_eq_ok h
    obtain ⟨semicolon, final, hsemicolon, h⟩ := bind_eq_ok h
    obtain ⟨rfl, rfl⟩ := pure_eq_ok h
    exact ⟨_, (expect_eq_ok.1 hlp).append (hes.append
      ((expect_eq_ok.1 hrp).append (expect_eq_ok.1 hsemicolon))),
      .assert loc lp rp semicolon hspells⟩

theorem binding_sound {loc : Location} {made : Statement}
    (h : binding loc input = .ok (made, rest)) :
    GoesOn (word .letWord loc) made input rest := by
  obtain ⟨name, afterName, hname, h⟩ := bind_eq_ok h
  obtain ⟨place, hplace⟩ := expectName_eq_ok.1 hname
  obtain ⟨assign, afterAssign, hassign, h⟩ := bind_eq_ok h
  obtain ⟨value, afterValue, hvalue, h⟩ := bind_eq_ok h
  obtain ⟨semicolon, final, hsemicolon, h⟩ := bind_eq_ok h
  obtain ⟨rfl, rfl⟩ := pure_eq_ok h
  obtain ⟨es, hes, hspells, -⟩ := expr_sound _ _ _ hvalue
  exact ⟨_, hplace.append ((expect_eq_ok.1 hassign).append
    (hes.append (expect_eq_ok.1 hsemicolon))), .bind name loc place assign semicolon hspells⟩

theorem named_sound {name : String} {loc : Location} {made : Statement}
    (h : named name loc input = .ok (made, rest)) :
    GoesOn ⟨.name name, loc⟩ made input rest := by
  obtain ⟨assigned, afterAssign, hassigned, h⟩ := bind_eq_ok h
  cases assigned with
  | true =>
    obtain ⟨assign, hassign⟩ := eat_eq_true.1 hassigned
    obtain ⟨value, afterValue, hvalue, h⟩ := bind_eq_ok h
    obtain ⟨semicolon, final, hsemicolon, h⟩ := bind_eq_ok h
    obtain ⟨rfl, rfl⟩ := pure_eq_ok h
    obtain ⟨es, hes, hspells, -⟩ := expr_sound _ _ _ hvalue
    exact ⟨_, hassign.append (hes.append (expect_eq_ok.1 hsemicolon)),
      .assign name loc assign semicolon hspells⟩
  | false =>
    obtain ⟨-, rfl⟩ := eat_eq_false.1 hassigned
    obtain ⟨called, afterOpen, hcalled, h⟩ := bind_eq_ok h
    cases called with
    | true =>
      obtain ⟨lp, hlp⟩ := eat_eq_true.1 hcalled
      obtain ⟨list, afterArgs, hlist, h⟩ := bind_eq_ok h
      obtain ⟨semicolon, final, hsemicolon, h⟩ := bind_eq_ok h
      obtain ⟨rfl, rfl⟩ := pure_eq_ok h
      obtain ⟨as, rp, has, hargs⟩ := args_sound expr_sound hlist
      have hwhole := hlp.append (has.append (expect_eq_ok.1 hsemicolon))
      refine ⟨_, ?_, .command name loc lp rp semicolon hargs⟩
      simpa using hwhole
    | false =>
      obtain ⟨-, rfl⟩ := eat_eq_false.1 hcalled
      change Except.error _ = _ at h
      cases h

/-! ## Statements and programs -/

theorem statement_sound (hinner : SoundList inner) {made : Statement}
    (h : statement inner input = .ok (made, rest)) : Makes (.statement made) input rest := by
  obtain ⟨tokens, stop⟩ := input
  rcases tokens with _ | ⟨⟨token, loc⟩, ts⟩
  · change Except.error _ = _ at h
    cases h
  · cases token with
    | symbol s =>
      cases s with
      | semicolon =>
        change Except.ok (Statement.empty, (⟨ts, stop⟩ : TokenList)) = _ at h
        cases h
        exact ⟨[mark .semicolon loc], ⟨rfl, rfl⟩, .empty loc⟩
      | leftBrace =>
        change (do return .block (← body inner) : Parser Statement) _ = _ at h
        obtain ⟨made, middle, hmade, h⟩ := bind_eq_ok h
        obtain ⟨rfl, rfl⟩ := pure_eq_ok h
        obtain ⟨us, hus, hbody⟩ := body_sound hinner hmade
        exact ⟨us, hus, .block hbody⟩
      | _ =>
        change Except.error _ = _ at h
        cases h
    | keyword k =>
      cases k with
      | macroWord =>
        change define inner loc ⟨ts, stop⟩ = _ at h
        exact (define_sound hinner h).makes
      | ifWord =>
        change cond inner loc ts.length ⟨ts, stop⟩ = _ at h
        exact (cond_sound hinner h).makes
      | repeatWord =>
        change repetition inner loc ⟨ts, stop⟩ = _ at h
        exact (repetition_sound hinner h).makes
      | whileWord =>
        change loop inner loc ⟨ts, stop⟩ = _ at h
        exact (loop_sound hinner h).makes
      | assertWord =>
        change assertion loc ⟨ts, stop⟩ = _ at h
        exact (assertion_sound h).makes
      | letWord =>
        change binding loc ⟨ts, stop⟩ = _ at h
        exact (binding_sound h).makes
      | _ =>
        change Except.error _ = _ at h
        cases h
    | name name =>
      change named name loc ⟨ts, stop⟩ = _ at h
      exact (named_sound h).makes
    | _ =>
      change Except.error _ = _ at h
      cases h

theorem macroNames_cons (first : Statement) (list : List Statement) :
    macroNames (first :: list) = macroNames [first] ++ macroNames list := by
  unfold macroNames
  rw [← List.map_append, ← List.filterMap_append]
  rfl

/-- A declaration goes through exactly if no name comes twice. -/
theorem declare_eq_ok {first : Statement} {seen seen' : List String} (hseen : seen.Nodup) :
    declare first seen input = .ok (seen', rest) ↔
      macroNames [first] ++ seen = seen' ∧ seen'.Nodup ∧ input = rest := by
  unfold declare
  cases hmacro : first.macro? with
  | none =>
    have hnames : macroNames [first] = [] := by
      rw [macroNames, List.filterMap_cons_none hmacro]
      rfl
    rw [hnames]
    constructor
    · intro h
      obtain ⟨rfl, rfl⟩ := pure_eq_ok h
      exact ⟨rfl, hseen, rfl⟩
    · rintro ⟨rfl, -, rfl⟩
      rfl
  | some decl =>
    have hnames : macroNames [first] = [decl.name] := by
      rw [macroNames, List.filterMap_cons_some hmacro]
      rfl
    rw [hnames]
    dsimp only
    split
    · next hmem =>
      constructor
      · intro h
        change Except.error _ = _ at h
        cases h
      · rintro ⟨rfl, hnodup, -⟩
        exact absurd hmem (List.nodup_cons.1 hnodup).1
    · next hmem =>
      constructor
      · intro h
        obtain ⟨rfl, rfl⟩ := pure_eq_ok h
        exact ⟨rfl, List.nodup_cons.2 ⟨hmem, hseen⟩, rfl⟩
      · rintro ⟨rfl, -, rfl⟩
        rfl

/-- The end of a list of statements: a closing brace, or the end of the text. -/
def closes : List Located → Bool
  | [] => true
  | t :: _ => t.token = .symbol .rightBrace

theorem statements_succ (n : Nat) (seen : List String) (input : TokenList) :
    statements (n + 1) seen input =
      if closes input.tokens then .ok ([], input)
      else (do
        let first ← statement (statements n [])
        let seen ← declare first seen
        return first :: (← statements n seen) : Parser (List Statement)) input := by
  obtain ⟨tokens, stop⟩ := input
  rcases tokens with _ | ⟨⟨token, loc⟩, ts⟩
  · rfl
  · cases token with
    | symbol s => cases s <;> rfl
    | _ => rfl

theorem statements_sound {n : Nat} {seen : List String} (hseen : seen.Nodup)
    {list : List Statement} (h : statements n seen input = .ok (list, rest)) :
    Makes (.list list) input rest ∧ (macroNames list ++ seen).Nodup := by
  induction n generalizing seen input list rest with
  | zero =>
    obtain ⟨rfl, rfl⟩ := pure_eq_ok h
    exact ⟨⟨[], .nil _, .nil⟩, hseen⟩
  | succ n ih =>
    rw [statements_succ] at h
    split at h
    · cases h
      exact ⟨⟨[], .nil _, .nil⟩, hseen⟩
    · obtain ⟨first, afterFirst, hfirst, h⟩ := bind_eq_ok h
      obtain ⟨seen', afterDeclare, hdeclare, h⟩ := bind_eq_ok h
      obtain ⟨others, final, hothers, h⟩ := bind_eq_ok h
      obtain ⟨rfl, rfl⟩ := pure_eq_ok h
      have hinner : SoundList (statements n []) := by
        intro input list rest h
        obtain ⟨hmakes, hnames⟩ := ih List.nodup_nil h
        exact ⟨hmakes, by rwa [List.append_nil] at hnames⟩
      obtain ⟨rfl, hseen', rfl⟩ := (declare_eq_ok hseen).1 hdeclare
      obtain ⟨ts, hts, hwrites⟩ := statement_sound hinner hfirst
      obtain ⟨⟨us, hus, hlist⟩, hnames⟩ := ih hseen' hothers
      refine ⟨⟨_, hts.append hus, .cons hwrites hlist⟩, ?_⟩
      rw [macroNames_cons, List.append_assoc]
      exact (List.perm_append_comm_assoc _ _ _).nodup_iff.1 hnames

theorem program_sound {made : Program} (h : program input = .ok (made, rest)) :
    Derives input.tokens made ∧ rest = ⟨[], input.stop⟩ := by
  obtain ⟨all, middle, hall, h⟩ := bind_eq_ok (p := statements input.tokens.length []) h
  obtain ⟨⟨ts, hts, hwrites⟩, hnames⟩ := statements_sound List.nodup_nil hall
  obtain ⟨found, final, hfound, h⟩ := bind_eq_ok h
  obtain ⟨hhead, rfl⟩ := peek_eq_ok hfound
  cases found with
  | some token =>
    change Except.error _ = _ at h
    cases h
  | none =>
    obtain ⟨rfl, rfl⟩ := pure_eq_ok h
    have hnil : middle.tokens = [] := List.head?_eq_none_iff.1 (Option.map_eq_none_iff.1 hhead)
    have htokens := hts.tokens
    rw [hnil, List.append_nil] at htokens
    rw [List.append_nil] at hnames
    refine ⟨⟨htokens ▸ hwrites, hnames⟩, ?_⟩
    rw [← hnil, ← hts.stop]

end Grammar

end BlockScript
