import BlockScript.Proofs.Script.Reprinting

/-!
# Printing and reading

What is read can be written, and what is written is read back. In one direction the names, numbers
and terms of a program come from tokens, which a text spells. In the other direction the tokens that
a program is printed by are laid out as a text, which is read as these tokens.
-/
namespace BlockScript
set_option autoImplicit false

open Grammar

/-! ## Printed tokens -/

theorem isName_of_mem_formNames {name : String} (h : name ∈ formNames) : IsName name := by
  rcases List.mem_cons.1 h with rfl | hrest
  · exact ⟨⟨[⟨.name "world", ⟨1, 1⟩⟩], ⟨1, 6⟩⟩, by decide +kernel, rfl⟩
  rcases List.mem_cons.1 hrest with rfl | hlast
  · exact ⟨⟨[⟨.name "waypoint", ⟨1, 1⟩⟩], ⟨1, 9⟩⟩, by decide +kernel, rfl⟩
  · obtain rfl := List.mem_singleton.1 hlast
    exact ⟨⟨[⟨.name "block", ⟨1, 1⟩⟩], ⟨1, 6⟩⟩, by decide +kernel, rfl⟩

theorem isName_type (type : ParamType) : IsName type.name := by
  cases type with
  | int => exact ⟨⟨[⟨.name "int", ⟨1, 1⟩⟩], ⟨1, 4⟩⟩, by decide +kernel, rfl⟩
  | bool => exact ⟨⟨[⟨.name "bool", ⟨1, 1⟩⟩], ⟨1, 5⟩⟩, by decide +kernel, rfl⟩
  | string => exact ⟨⟨[⟨.name "string", ⟨1, 1⟩⟩], ⟨1, 7⟩⟩, by decide +kernel, rfl⟩

/-- All the tokens can be written. -/
def AllLegible (ts : List Token) : Prop := ∀ t ∈ ts, t.Legible

namespace AllLegible

variable {t : Token} {ts us : List Token}

theorem nil : AllLegible [] := nofun

theorem cons (ht : t.Legible) (h : AllLegible ts) : AllLegible (t :: ts) :=
  List.forall_mem_cons.2 ⟨ht, h⟩

theorem symbol (s : Symbol) (h : AllLegible ts) : AllLegible (.symbol s :: ts) :=
  cons (Token.legible_symbol s) h

theorem keyword (k : Keyword) (h : AllLegible ts) : AllLegible (.keyword k :: ts) :=
  cons (Token.legible_keyword k) h

theorem name {name : String} (hname : IsName name) (h : AllLegible ts) :
    AllLegible (.name name :: ts) :=
  cons (Token.legible_name hname) h

theorem append (h : AllLegible ts) (hus : AllLegible us) : AllLegible (ts ++ us) :=
  List.forall_mem_append.2 ⟨h, hus⟩

theorem inParens (h : AllLegible ts) : AllLegible (Tokens.inParens ts) :=
  symbol .leftParen (h.append (symbol .rightParen nil))

theorem separated {list : List (List Token)} (h : ∀ ts ∈ list, AllLegible ts) :
    AllLegible (Tokens.separated list) := by
  induction list with
  | nil => exact nil
  | cons first rest ih =>
    obtain ⟨hfirst, hrest⟩ := List.forall_mem_cons.1 h
    refine hfirst.append ?_
    split
    · exact nil
    · exact symbol .comma (ih hrest)

theorem ofTerms {terms : List Term}
    (h : ∀ term ∈ terms, Int32.minValue.toInt < term.magnitude.toInt ∧
      term.magnitude.toInt ≤ Int32.maxValue.toInt) :
    AllLegible (Tokens.ofTerms terms) := by
  induction terms with
  | nil => exact nil
  | cons term rest ih =>
    obtain ⟨hterm, hrest⟩ := List.forall_mem_cons.1 h
    have hfirst := Token.legible_ofTerm hterm.1
    cases rest with
    | nil => exact cons hfirst nil
    | cons next more => exact cons hfirst (symbol .plus (ih hrest))

theorem ofKey {key : Option String} (h : ∀ k ∈ key, IsKey k) : AllLegible (Tokens.ofKey key) := by
  cases key with
  | none => exact nil
  | some key =>
    refine cons ?_ (symbol .colon nil)
    rcases h key rfl with hname | ⟨axis, magnitude, haxis⟩
    · rw [keyToken_of_readsAs hname]
      exact Token.legible_name hname
    · rw [keyToken_of_readsAs haxis]
      exact (readsAs_axis axis magnitude key).1 haxis

theorem ofParams {params : List Param} (h : WellFormed.params params) :
    AllLegible (Tokens.ofParams params) := by
  refine separated (List.forall_mem_map.2 fun param hparam => ?_)
  exact name (isName_type param.type) (name (h.1 param hparam) nil)

theorem ofMessage (message : Option String) : AllLegible (Tokens.ofMessage message) := by
  cases message with
  | none => exact nil
  | some message => exact symbol .comma (cons (Token.legible_text message) nil)

mutual

theorem ofExpr : ∀ e : Expr, WellFormed.expr e → AllLegible (Tokens.ofExpr e)
  | .int _ _, h => cons (Token.legible_int h.1) nil
  | .text value _, _ => cons (Token.legible_text value) nil
  | .bool _ _, _ => keyword _ nil
  | .ident _ _, h => name h nil
  | .selector _ _, h => ofTerms h.2
  | .world x y z _, ⟨hx, hy, hz⟩ => by
    refine name (isName_of_mem_formNames (by decide)) (inParens (separated ?_))
    simp only [List.forall_mem_cons]
    exact ⟨ofExpr x hx, ofExpr y hy, ofExpr z hz, nofun⟩
  | .waypoint place _, _ =>
    name (isName_of_mem_formNames (by decide)) (inParens (cons (Token.legible_text place) nil))
  | .query criteria _, h =>
    name (isName_of_mem_formNames (by decide)) (inParens (separated (ofCriteria criteria h)))
  | .predicate _ args _, ⟨⟨hname, _⟩, hargs⟩ =>
    name hname (inParens (separated (ofArgs args hargs)))
  | .unary _ operand _, h => symbol _ (inParens (ofExpr operand h))
  | .binary _ left right, ⟨hleft, hright⟩ =>
    (inParens (ofExpr left hleft)).append (symbol _ (inParens (ofExpr right hright)))

theorem ofCriteria : ∀ criteria : List (String × Expr), WellFormed.criteria criteria →
    ∀ ts ∈ Tokens.ofCriteria criteria, AllLegible ts
  | [], _ => nofun
  | (key, e) :: rest, ⟨hkey, he, hrest⟩ =>
    List.forall_mem_cons.2
      ⟨(ofKey (by simpa using hkey)).append (ofExpr e he), ofCriteria rest hrest⟩

theorem ofArgs : ∀ args : List (Arg Expr), WellFormed.args args →
    ∀ ts ∈ Tokens.ofArgs args, AllLegible ts
  | [], _ => nofun
  | ⟨_, e⟩ :: rest, ⟨hkey, he, hrest⟩ =>
    List.forall_mem_cons.2 ⟨(ofKey hkey).append (ofExpr e he), ofArgs rest hrest⟩

end

mutual

theorem ofStatement : ∀ s : Statement, WellFormed.statement s → AllLegible (Tokens.ofStatement s)
  | .define _ _ body _, ⟨hname, hparams, hbody⟩ =>
    keyword _ (name hname ((inParens (ofParams hparams)).append (ofBody body hbody)))
  | .cond test yes no _, ⟨htest, hyes, hno⟩ =>
    keyword _ ((inParens (ofExpr test htest)).append
      ((ofBody yes hyes).append (ofAlternative no hno)))
  | .repeatCount count body _, ⟨hcount, hbody⟩ =>
    keyword _ ((inParens (ofExpr count hcount)).append (ofBody body hbody))
  | .repeatRange _ _ stop _ body _, ⟨hname, _, hstop, _, hbody⟩ =>
    keyword _ ((inParens (name hname (symbol _ (ofExpr stop hstop)))).append (ofBody body hbody))
  | .loop test body _, ⟨htest, hbody⟩ =>
    keyword _ ((inParens (ofExpr test htest)).append (ofBody body hbody))
  | .assert test message _, htest =>
    keyword _ ((inParens ((ofExpr test htest).append (ofMessage message))).append (symbol _ nil))
  | .bind _ value _, ⟨hname, hvalue⟩ =>
    keyword _ (name hname (symbol _ ((ofExpr value hvalue).append (symbol _ nil))))
  | .assign _ value _, ⟨hname, hvalue⟩ =>
    name hname (symbol _ ((ofExpr value hvalue).append (symbol _ nil)))
  | .command _ args _, ⟨hname, hargs⟩ =>
    name hname ((inParens (separated (ofArgs args hargs))).append (symbol _ nil))
  | .block body, hbody => ofBody body hbody
  | .empty, _ => symbol _ nil

theorem ofBody : ∀ b : Body Statement, WellFormed.body b → AllLegible (Tokens.ofBody b)
  | ⟨list, _⟩, ⟨hlist, _⟩ => symbol _ ((ofStatements list hlist).append (symbol _ nil))

theorem ofAlternative : ∀ alternative : Option (Body Statement),
    WellFormed.alternative alternative → AllLegible (Tokens.ofAlternative alternative)
  | none, _ => nil
  | some body, hbody => keyword _ (ofBody body hbody)

theorem ofStatements : ∀ list : List Statement, WellFormed.statements list →
    AllLegible (Tokens.ofStatements list)
  | [], _ => nil
  | first :: rest, ⟨hfirst, hrest⟩ => (ofStatement first hfirst).append (ofStatements rest hrest)

end

end AllLegible

/-- A program that can be written is read back from its text. -/
theorem parse_render {program : Program} (h : program.WellFormed) :
    ∃ made, parse program.render = .ok made ∧ made.unplaced = program.unplaced := by
  obtain ⟨list, hlist, htokens⟩ := tokenize_layout (AllLegible.ofStatements program h.1)
  obtain ⟨made, hwrites, hsame⟩ := statements_placed program h.1 list.tokens htokens
  have hderives : Derives list.tokens made := ⟨hwrites, nodup_macroNames hsame h.2⟩
  exact ⟨made, parse_eq_ok.2 ⟨list, hlist, hderives⟩, hsame⟩

/-! ## Tokens that are read -/

/-- Every token has a spelling. -/
def AllSpelled (ts : List Located) : Prop := ∀ t ∈ ts, ∃ text, Spelling t.token text

namespace AllSpelled

variable {t : Located} {ts us : List Located}

theorem of_cons (h : AllSpelled (t :: ts)) :
    (∃ text, Spelling t.token text) ∧ AllSpelled ts :=
  List.forall_mem_cons.1 h

theorem of_append (h : AllSpelled (ts ++ us)) : AllSpelled ts ∧ AllSpelled us :=
  List.forall_mem_append.1 h

end AllSpelled

theorem Spelling.isName {name : String} {text : List Char} (h : Spelling (.name name) text) :
    IsName name := by
  have htext := h.name_text
  subst htext
  exact (readsAs_name name).2 h

theorem Spelling.isKey {axis : Axis} {magnitude : Option Int32} {key : String} {text : List Char}
    (h : Spelling (.axis axis magnitude key) text) : IsKey key := by
  have htext := h.axis_text
  subst htext
  exact .inr ⟨axis, magnitude, (readsAs_axis axis magnitude key).2 h⟩

theorem Spelling.int_bounds {value : Int64} {text : List Char} (h : Spelling (.int value) text) :
    0 ≤ value.toInt ∧ value.toInt ≤ Int64.maxValue.toInt := by
  cases h with
  | int hdigits hvalue => exact ⟨hvalue ▸ Int.natCast_nonneg _, value.toInt_le⟩

theorem magnitude_bounds {negative : Bool} {digits : List Char} {m : Int32}
    (h : Lexer.magnitude negative digits = .ok m) :
    Int32.minValue.toInt < m.toInt ∧ m.toInt ≤ Int32.maxValue.toInt := by
  have hmin : Int32.minValue.toInt = -2147483648 := by decide
  have hmax : Int32.maxValue.toInt = 2147483647 := by decide
  obtain ⟨hle, hm⟩ := Token.magnitude_eq_ok.1 h
  cases negative with
  | true =>
    rw [if_pos rfl] at hm
    omega
  | false =>
    rw [if_neg Bool.false_ne_true] at hm
    omega

/-- An axis without a number stands for one block. -/
theorem Spelling.term_bounds {axis : Axis} {magnitude : Option Int32} {key : String}
    {text : List Char} (h : Spelling (.axis axis magnitude key) text) :
    Int32.minValue.toInt < (magnitude.getD 1).toInt ∧
      (magnitude.getD 1).toInt ≤ Int32.maxValue.toInt := by
  cases h with
  | axis _ => decide
  | term _ _ hvalue => exact magnitude_bounds hvalue
  | signed _ _ _ hvalue => exact magnitude_bounds hvalue

namespace Grammar

theorem Terms.wellFormed {ts : List Located} {terms : List Term} (h : Terms ts terms)
    (hts : AllSpelled ts) : Selector.WellFormed ⟨terms⟩ := by
  induction h with
  | one axis magnitude spelling loc =>
    obtain ⟨⟨text, htext⟩, -⟩ := hts.of_cons
    exact ⟨List.cons_ne_nil _ _, List.forall_mem_cons.2 ⟨htext.term_bounds, nofun⟩⟩
  | more axis magnitude spelling loc plus h ih =>
    obtain ⟨⟨text, htext⟩, hafter⟩ := hts.of_cons
    obtain ⟨-, hrest⟩ := hafter.of_cons
    exact ⟨List.cons_ne_nil _ _, List.forall_mem_cons.2 ⟨htext.term_bounds, (ih hrest).2⟩⟩

theorem Chain.wellFormed {ts : List Located} {value : Selector} (h : Chain ts value)
    (hts : AllSpelled ts) : value.WellFormed := by
  -- The sign at the end stands for one block, whatever its direction.
  have hsign : ∀ {terms : List Term} (axis : Axis), Selector.WellFormed ⟨terms⟩ →
      Selector.WellFormed ⟨terms ++ [⟨axis, 1⟩]⟩ := by
    intro terms axis hterms
    have hone : Int32.minValue.toInt < (1 : Int32).toInt ∧
        (1 : Int32).toInt ≤ Int32.maxValue.toInt := by
      decide
    exact ⟨List.append_ne_nil_of_left_ne_nil hterms.1 _,
      List.forall_mem_append.2 ⟨hterms.2, List.forall_mem_cons.2 ⟨hone, nofun⟩⟩⟩
  cases h with
  | plain h => exact h.wellFormed hts
  | up h loc => exact hsign .up (h.wellFormed hts.of_append.1)
  | down h loc => exact hsign .down (h.wellFormed hts.of_append.1)

theorem Key.isKey {ts : List Located} {key : Option String} (h : Key ts key)
    (hts : AllSpelled ts) : ∀ k ∈ key, IsKey k := by
  cases h with
  | positional => nofun
  | name spelling loc colon =>
    obtain ⟨⟨text, htext⟩, -⟩ := hts.of_cons
    rintro _ ⟨⟩
    exact .inl htext.isName
  | axis axis magnitude spelling loc colon =>
    obtain ⟨⟨text, htext⟩, -⟩ := hts.of_cons
    rintro _ ⟨⟩
    exact htext.isKey

theorem criteria_wellFormed {criteria : List (String × Expr)}
    (h : WellFormed.args (criteria.map fun (key, e) => ⟨some key, e⟩)) :
    WellFormed.criteria criteria := by
  induction criteria with
  | nil => trivial
  | cons first rest ih => exact ⟨h.1 first.1 rfl, h.2.1, ih h.2.2⟩

/-- What is spelled inside a statement can be written. -/
def Form.WellFormed : Form → Prop
  | .expr _ e => WellFormed.expr e
  | .args list => WellFormed.args list

theorem Spells.wellFormed {ts : List Located} {form : Form} (h : Spells ts form)
    (hts : AllSpelled ts) : form.WellFormed := by
  induction h with
  | lift hlevel h ih => exact ih hts
  | binary op loc hleft hright hapart ihleft ihright =>
    obtain ⟨hls, hafter⟩ := hts.of_append
    exact ⟨ihleft hls, ihright hafter.of_cons.2⟩
  | unary op loc h ih => exact ih hts.of_cons.2
  | int value loc =>
    obtain ⟨⟨text, htext⟩, -⟩ := hts.of_cons
    exact htext.int_bounds
  | text value loc => trivial
  | trueWord loc => trivial
  | falseWord loc => trivial
  | parens lp rp h ih => exact ih hts.of_cons.2.of_append.1
  | selector h => exact h.wellFormed hts
  | ident name loc =>
    obtain ⟨⟨text, htext⟩, -⟩ := hts.of_cons
    exact htext.isName
  | world loc lp first second rp hx hy hz ihx ihy ihz =>
    obtain ⟨hxs, hafter⟩ := hts.of_cons.2.of_cons.2.of_append
    obtain ⟨hys, hrest⟩ := hafter.of_cons.2.of_append
    exact ⟨ihx hxs, ihy hys, ihz hrest.of_cons.2.of_append.1⟩
  | waypoint name loc lp place rp => trivial
  | query loc lp rp h ih => exact criteria_wellFormed (ih hts.of_cons.2.of_cons.2.of_append.1)
  | predicate name loc lp rp hname h ih =>
    obtain ⟨⟨text, htext⟩, hafter⟩ := hts.of_cons
    exact ⟨⟨htext.isName, hname⟩, ih hafter.of_cons.2.of_append.1⟩
  | noArgs => trivial
  | lastArg hkey h ih =>
    obtain ⟨hks, hes⟩ := hts.of_append
    exact ⟨hkey.isKey hks, ih hes, trivial⟩
  | moreArgs comma hkey h hlist hrest ih ihrest =>
    obtain ⟨hfirst, hafter⟩ := hts.of_append
    obtain ⟨hks, hes⟩ := hfirst.of_append
    exact ⟨hkey.isKey hks, ih hes, ihrest hafter.of_cons.2⟩

theorem Params.isName {ts : List Located} {params : List Param} (h : Params ts params)
    (hts : AllSpelled ts) : ∀ param ∈ params, IsName param.name := by
  induction h with
  | none => nofun
  | last type name typeLoc loc =>
    obtain ⟨⟨text, htext⟩, -⟩ := hts.of_cons.2.of_cons
    exact List.forall_mem_cons.2 ⟨htext.isName, nofun⟩
  | more type name typeLoc loc comma hparams h ih =>
    obtain ⟨⟨text, htext⟩, hafter⟩ := hts.of_cons.2.of_cons
    exact List.forall_mem_cons.2 ⟨htext.isName, ih hafter.of_cons.2⟩

/-- What is spelled outside expressions can be written. -/
def Shape.WellFormed : Shape → Prop
  | .statement s => WellFormed.statement s
  | .body b => WellFormed.body b
  | .list statements => WellFormed.statements statements

theorem nodup_macroNames_singleton (s : Statement) : (macroNames [s]).Nodup := by
  rw [macroNames, List.filterMap_cons]
  split <;> simp

theorem Writes.wellFormed {ts : List Located} {shape : Shape} (h : Writes ts shape)
    (hts : AllSpelled ts) : shape.WellFormed := by
  induction h with
  | empty loc => trivial
  | block h ih => exact ih hts
  | define name loc place lp rp hparams hnames h ih =>
    obtain ⟨⟨text, htext⟩, hafter⟩ := hts.of_cons.2.of_cons
    obtain ⟨hps, hrest⟩ := hafter.of_cons.2.of_append
    exact ⟨htext.isName, ⟨hparams.isName hps, hnames⟩, ih hrest.of_cons.2⟩
  | cond loc lp rp he h ih =>
    obtain ⟨hes, hafter⟩ := hts.of_cons.2.of_cons.2.of_append
    exact ⟨he.wellFormed hes, ih hafter.of_cons.2, trivial⟩
  | condElse loc lp rp place he h hno ih ihno =>
    obtain ⟨hes, hafter⟩ := hts.of_cons.2.of_cons.2.of_append
    obtain ⟨hyes, hrest⟩ := hafter.of_cons.2.of_append
    exact ⟨he.wellFormed hes, ih hyes, ihno hrest.of_cons.2⟩
  | condElseIf loc lp rp place nested he h hnext ih ihnext =>
    obtain ⟨hes, hafter⟩ := hts.of_cons.2.of_cons.2.of_append
    obtain ⟨hyes, hrest⟩ := hafter.of_cons.2.of_append
    exact ⟨he.wellFormed hes, ih hyes, ⟨ihnext hrest.of_cons.2, trivial⟩,
      nodup_macroNames_singleton _⟩
  | repeatCount loc lp rp he h ih =>
    obtain ⟨hes, hafter⟩ := hts.of_cons.2.of_cons.2.of_append
    exact ⟨he.wellFormed hes, ih hafter.of_cons.2⟩
  | repeatRange name loc lp place colon rp he h ih =>
    obtain ⟨⟨text, htext⟩, hafter⟩ := hts.of_cons.2.of_cons.2.of_cons
    obtain ⟨hes, hrest⟩ := hafter.of_cons.2.of_append
    exact ⟨htext.isName, ⟨place, rfl⟩, he.wellFormed hes, rfl, ih hrest.of_cons.2⟩
  | loop loc lp rp he h ih =>
    obtain ⟨hes, hafter⟩ := hts.of_cons.2.of_cons.2.of_append
    exact ⟨he.wellFormed hes, ih hafter.of_cons.2⟩
  | assert loc lp rp semicolon he => exact he.wellFormed hts.of_cons.2.of_cons.2.of_append.1
  | assertMessage message loc lp comma place rp semicolon he =>
    exact he.wellFormed hts.of_cons.2.of_cons.2.of_append.1
  | bind name loc place assign semicolon he =>
    obtain ⟨⟨text, htext⟩, hafter⟩ := hts.of_cons.2.of_cons
    exact ⟨htext.isName, he.wellFormed hafter.of_cons.2.of_append.1⟩
  | assign name loc assign semicolon he =>
    obtain ⟨⟨text, htext⟩, hafter⟩ := hts.of_cons
    exact ⟨htext.isName, he.wellFormed hafter.of_cons.2.of_append.1⟩
  | command name loc lp rp semicolon hargs =>
    obtain ⟨⟨text, htext⟩, hafter⟩ := hts.of_cons
    exact ⟨htext.isName, hargs.wellFormed hafter.of_cons.2.of_append.1⟩
  | body loc close h hnames ih => exact ⟨ih hts.of_cons.2.of_append.1, hnames⟩
  | nil => trivial
  | cons h hrest ih ihrest =>
    obtain ⟨hfirst, hafter⟩ := hts.of_append
    exact ⟨ih hfirst, ihrest hafter⟩

end Grammar

/-- Every program that is read can be written. -/
theorem wellFormed_of_parse {source : String} {program : Program}
    (h : parse source = .ok program) : program.WellFormed := by
  obtain ⟨list, hlist, hwrites, hnames⟩ := parse_eq_ok.1 h
  exact ⟨hwrites.wellFormed (spelling_of_tokenize hlist), hnames⟩

/-- What is read can be written, and what can be written is read back from its text: the same
program, up to the places of its parts. -/
theorem print_parse_round_trip :
    (∀ source program, parse source = .ok program → program.WellFormed) ∧
    ∀ program : Program, program.WellFormed →
      ∃ made, parse program.render = .ok made ∧ made.unplaced = program.unplaced :=
  ⟨fun _ _ h => wellFormed_of_parse h, fun _ h => parse_render h⟩

/-- A test of a selector, with a text that needs escapes, and a key that is an axis. -/
theorem print_parse_round_trip_of_assertion :
    ∃ program, parse "assert(!(F-2^ == x), 'a\"\\\\'); say(b: 1);" = .ok program ∧
      program.WellFormed ∧
      ∃ made, parse program.render = .ok made ∧ made.unplaced = program.unplaced := by
  have hread :
      (parse "assert(!(F-2^ == x), 'a\"\\\\'); say(b: 1);").toBool = true := by
    decide +kernel
  cases hparse : parse "assert(!(F-2^ == x), 'a\"\\\\'); say(b: 1);" with
  | error error =>
    rw [hparse] at hread
    cases hread
  | ok program =>
    have hwell := print_parse_round_trip.1 _ program hparse
    exact ⟨program, rfl, hwell, print_parse_round_trip.2 program hwell⟩

example :
    Program.render [.command "say" [⟨some "b", .text "a\"\\" default⟩,
      ⟨none, .binary .sub (.int 1 default) (.unary .neg (.int 2 default) default)⟩] default] =
    "say(b:\"a\\\"\\\\\",(1)-(-(2)));" := by
  decide +kernel

end BlockScript
