import BlockScript.Proofs.Script.StatementCompleteness

/-!
# Braces among tokens

The open braces behind some tokens are a stack: an opening brace goes on top of it, and a closing
one takes the top away. What spells a statement leaves the stack as it is. So where a brace opens a
body and whole statements follow it, they lie within that body, together with everything they open.
-/
namespace BlockScript
set_option autoImplicit false

/-! ## Open braces -/

/-- The open braces behind one more token, the innermost first; a closing brace needs one. -/
def brace (opened : List Location) (t : Located) : Option (List Location) :=
  match t.token with
  | .symbol .leftBrace => some (t.loc :: opened)
  | .symbol .rightBrace => opened.tail?
  | _ => some opened

/-- The open braces behind tokens, the innermost first, if all closing ones have a partner. -/
def openBraces (opened : List Location) (tokens : List Located) : Option (List Location) :=
  tokens.foldlM brace opened

/-- All braces among the tokens have their partners there. -/
def Closed (ts : List Located) : Prop := openBraces [] ts = some []

section

variable {ts us : List Located} {opened now : List Location}

theorem openBraces_cons (opened : List Location) (t : Located) (rest : List Located) :
    openBraces opened (t :: rest) = (brace opened t).bind fun now => openBraces now rest :=
  List.foldlM_cons ..

theorem openBraces_append (opened : List Location) (ts us : List Located) :
    openBraces opened (ts ++ us) = (openBraces opened ts).bind fun now => openBraces now us :=
  List.foldlM_append ..

/-- Further braces below those that are open stay below. -/
theorem brace_below {t : Located} (h : brace opened t = some now) (below : List Location) :
    brace (opened ++ below) t = some (now ++ below) := by
  unfold brace at h ⊢
  split at h
  · cases h
    rfl
  · cases opened with
    | nil => cases h
    | cons top opened =>
      cases h
      rfl
  · cases h
    rfl

theorem openBraces_below (h : openBraces opened ts = some now) (below : List Location) :
    openBraces (opened ++ below) ts = some (now ++ below) := by
  induction ts generalizing opened with
  | nil =>
    cases h
    rfl
  | cons t rest ih =>
    rw [openBraces_cons] at h ⊢
    obtain ⟨middle, hbrace, hrest⟩ := Option.bind_eq_some_iff.1 h
    rw [brace_below hbrace below]
    exact ih hrest

namespace Closed

/-- Behind closed tokens the same braces are open as in front of them. -/
theorem openBraces_eq (h : Closed ts) (opened : List Location) :
    openBraces opened ts = some opened := openBraces_below h opened

theorem openBraces_append (h : Closed ts) (opened : List Location) (us : List Located) :
    openBraces opened (ts ++ us) = openBraces opened us := by
  rw [BlockScript.openBraces_append, h.openBraces_eq]
  rfl

theorem append (h : Closed ts) (h' : Closed us) : Closed (ts ++ us) :=
  (h.openBraces_append [] us).trans h'

theorem braces (h : Closed ts) (loc close : Location) :
    Closed (Grammar.mark .leftBrace loc :: (ts ++ [Grammar.mark .rightBrace close])) := by
  rw [Closed, openBraces_cons]
  exact h.openBraces_append [loc] _

end Closed

/-! ## Splitting at a brace -/

/-- Where tokens go on behind closed ones with a closing brace, they are not closed. -/
theorem not_closed_of_rightBrace (h : Closed ts) (close : Location) (us : List Located) :
    ¬ Closed (ts ++ Grammar.mark .rightBrace close :: us) := by
  rw [Closed, h.openBraces_append]
  exact nofun

/-- Closed tokens in front of a closing brace that is the partner of one further in front. -/
theorem prefix_of_closed {rest after : List Located} {close : Location} (h : Closed ts)
    (hus : Closed us) (heq : ts ++ Grammar.mark .rightBrace close :: rest = us ++ after) :
    ∃ between, ts = us ++ between ∧ after = between ++ Grammar.mark .rightBrace close :: rest := by
  rcases List.append_eq_append_iff.1 heq with ⟨more, rfl, hmore⟩ | ⟨between, rfl, rfl⟩
  · cases more with
    | nil => exact ⟨[], by rw [List.append_nil, List.append_nil], hmore.symm⟩
    | cons t more =>
      cases hmore
      exact absurd hus (not_closed_of_rightBrace h close more)
  · exact ⟨between, rfl, rfl⟩

/-- An opening brace and closed tokens behind it lie within closed tokens, or all behind them. -/
theorem split_at_brace {rest before after : List Located} {loc : Location} (h : Closed ts)
    (hus : Closed us) (heq : ts ++ rest = before ++ Grammar.mark .leftBrace loc :: (us ++ after)) :
    (∃ between, ts = before ++ Grammar.mark .leftBrace loc :: (us ++ between) ∧
        after = between ++ rest) ∨
      ∃ between, before = ts ++ between ∧
        rest = between ++ Grammar.mark .leftBrace loc :: (us ++ after) := by
  rcases List.append_eq_append_iff.1 heq with ⟨between, rfl, hrest⟩ | ⟨more, rfl, hmore⟩
  · exact .inr ⟨between, rfl, hrest⟩
  cases more with
  | nil => exact .inr ⟨[], by rw [List.append_nil, List.append_nil], hmore.symm⟩
  | cons t more =>
    rw [List.cons_append] at hmore
    obtain ⟨rfl, hinside⟩ := List.cons.inj hmore
    rcases List.append_eq_append_iff.1 hinside with ⟨between, rfl, hrest⟩ | ⟨spare, rfl, -⟩
    · exact .inl ⟨between, rfl, hrest⟩
    · -- What follows the brace would have to close it and to leave it open.
      rw [Closed, openBraces_append] at h hus
      obtain ⟨outer, -, hclosed⟩ := Option.bind_eq_some_iff.1 h
      obtain ⟨inner, hinner, -⟩ := Option.bind_eq_some_iff.1 hus
      have hopen := openBraces_below hinner (loc :: outer)
      rw [openBraces_cons] at hclosed
      have hnone := hclosed.symm.trans hopen
      exact absurd (Option.some.inj hnone).symm (List.append_ne_nil_of_right_ne_nil _ nofun)

end

namespace Grammar

/-! ## Tokens outside expressions -/

/-- A token that no expression has: a brace, or the word that begins a declaration. -/
def isOuter : Token → Bool
  | .symbol .leftBrace => true
  | .symbol .rightBrace => true
  | .keyword .macroWord => true
  | _ => false

/-- Tokens with no brace and no declaration among them. -/
def isPlain (ts : List Located) : Bool := ts.all fun t => !isOuter t.token

variable {ts us : List Located}

@[simp]
theorem isPlain_nil : isPlain [] = true := rfl

@[simp]
theorem isPlain_cons (t : Located) (ts : List Located) :
    isPlain (t :: ts) = (!isOuter t.token && isPlain ts) := List.all_cons ..

@[simp]
theorem isPlain_append (ts us : List Located) :
    isPlain (ts ++ us) = (isPlain ts && isPlain us) := List.all_append ..

theorem Terms.isPlain {terms : List Term} (h : Terms ts terms) : isPlain ts = true := by
  induction h with
  | one => rfl
  | more _ _ _ _ _ _ ih => exact ih

theorem Chain.isPlain {value : Selector} (h : Chain ts value) : isPlain ts = true := by
  cases h with
  | plain h => exact h.isPlain
  | up h => simp [h.isPlain, isOuter]
  | down h => simp [h.isPlain, isOuter]

theorem Key.isPlain {key : Option String} (h : Key ts key) : isPlain ts = true := by
  cases h <;> rfl

theorem Params.isPlain {params : List Param} (h : Params ts params) : isPlain ts = true := by
  induction h with
  | none => rfl
  | last => rfl
  | more _ _ _ _ _ _ _ ih => exact ih

theorem Spells.isPlain {form : Form} (h : Spells ts form) : isPlain ts = true := by
  induction h with
  | lift _ _ ih => exact ih
  | binary op loc _ _ _ ihleft ihright => cases op <;> simp [ihleft, ihright, isOuter, sign]
  | unary op loc _ ih => cases op <;> simp [ih, isOuter, unarySign]
  | parens lp rp _ ih => simp [ih, isOuter]
  | selector h => exact h.isPlain
  | world _ _ _ _ _ _ _ _ ihx ihy ihz => simp [ihx, ihy, ihz, isOuter]
  | query _ _ _ _ ih => simp [ih, isOuter]
  | predicate _ _ _ _ _ _ ih => simp [ih, isOuter]
  | lastArg hkey _ ih => simp [hkey.isPlain, ih]
  | moreArgs _ hkey _ _ _ ih ihrest => simp [hkey.isPlain, ih, ihrest, isOuter]
  | _ => rfl

/-! ## Blocks and declarations -/

/-- Tokens with blocks among them, and the names of the macros that they declare outside of all
blocks. -/
inductive Nested : List Located → List String → Prop where
  | nil : Nested [] []
  | token {t : Located} {ts : List Located} {names : List String} (ht : isOuter t.token = false)
    (h : Nested ts names) : Nested (t :: ts) names
  | block {ts us : List Located} {inside names : List String} (loc close : Location)
    (h : Nested ts inside) (hus : Nested us names) :
    Nested (mark .leftBrace loc :: (ts ++ mark .rightBrace close :: us)) names
  | declaration {ts : List Located} {names : List String} (name : String) (loc place : Location)
    (h : Nested ts names) :
    Nested (word .macroWord loc :: ⟨.name name, place⟩ :: ts) (name :: names)

namespace Nested

variable {names others : List String}

theorem append (h : Nested ts names) (hus : Nested us others) :
    Nested (ts ++ us) (names ++ others) := by
  induction h with
  | nil => exact hus
  | token ht _ ih => exact .token ht ih
  | block loc close h _ _ ih =>
    rw [List.cons_append, List.append_assoc]
    exact .block loc close h ih
  | declaration name loc place _ ih => exact .declaration name loc place ih

theorem of_isPlain (h : isPlain ts = true) (hus : Nested us names) : Nested (ts ++ us) names := by
  induction ts with
  | nil => exact hus
  | cons t ts ih =>
    rw [isPlain_cons, Bool.and_eq_true] at h
    exact .token (Bool.not_eq_true' _ ▸ h.1) (ih h.2)

theorem closed (h : Nested ts names) : Closed ts := by
  induction h with
  | nil => rfl
  | @token t ts _ ht _ ih =>
    have hbrace : brace [] t = some [] := by
      unfold brace
      split
      · next heq =>
        rw [heq] at ht
        cases ht
      · next heq =>
        rw [heq] at ht
        cases ht
      · rfl
    rw [Closed, openBraces_cons, hbrace]
    exact ih
  | block loc close _ _ ih ihus =>
    rw [List.append_cons]
    exact (ih.braces loc close).append ihus
  | declaration _ _ _ _ ih => exact ih

end Nested

theorem closed_of_isPlain (h : isPlain ts = true) : Closed ts := by
  have hnested := Nested.of_isPlain h .nil
  rw [List.append_nil] at hnested
  exact hnested.closed

/-- The name that comes next, if one does. -/
def nextName (ts : List Located) : List String :=
  match ts.head?.map Located.token with
  | some (.name name) => [name]
  | _ => []

/-- The names of the macros declared outside of all blocks, if the tokens stand inside some. -/
def namesAt : Nat → List Located → List String
  | _, [] => []
  | depth, t :: rest =>
    match t.token with
    | .symbol .leftBrace => namesAt (depth + 1) rest
    | .symbol .rightBrace => namesAt (depth - 1) rest
    | .keyword .macroWord => (if depth = 0 then nextName rest else []) ++ namesAt depth rest
    | _ => namesAt depth rest

theorem namesAt_cons {t : Located} (ht : isOuter t.token = false) (depth : Nat)
    (rest : List Located) : namesAt depth (t :: rest) = namesAt depth rest := by
  rw [namesAt]
  split
  · next heq =>
    rw [heq] at ht
    cases ht
  · next heq =>
    rw [heq] at ht
    cases ht
  · next heq =>
    rw [heq] at ht
    cases ht
  · rfl

theorem Nested.namesAt_append {names : List String} (h : Nested ts names) (depth : Nat)
    (rest : List Located) :
    namesAt depth (ts ++ rest) = (if depth = 0 then names else []) ++ namesAt depth rest := by
  induction h generalizing depth rest with
  | nil => rw [ite_self, List.nil_append, List.nil_append]
  | token ht _ ih => exact (namesAt_cons ht depth _).trans (ih depth rest)
  | @block ts us _ _ loc close _ _ ih ihus =>
    have hinside := ih (depth + 1) (mark .rightBrace close :: (us ++ rest))
    rw [List.cons_append, List.append_assoc]
    exact hinside.trans (ihus depth rest)
  | @declaration ts names name loc place _ ih =>
    have hhere : namesAt depth (word .macroWord loc :: ⟨.name name, place⟩ :: (ts ++ rest)) =
        (if depth = 0 then [name] else []) ++ namesAt depth (ts ++ rest) := rfl
    rw [List.cons_append, List.cons_append, hhere, ih]
    split <;> rfl

/-- The names of the macros that a statement, or a list of statements, declares. -/
def Shape.macros : Shape → List String
  | statement made => macroNames [made]
  | body _ => []
  | list made => macroNames made

/-- A head in parentheses and what follows it. -/
theorem Nested.headed {es : List Located} {names : List String} (hes : isPlain es = true)
    (h : Nested ts names) (lp rp : Location) :
    Nested (mark .leftParen lp :: (es ++ mark .rightParen rp :: ts)) names :=
  .token rfl (.of_isPlain hes (.token rfl h))

/-- A condition declares nothing. -/
theorem Writes.macroNames_cond {loc : Location} {made : Statement}
    (h : Writes (word .ifWord loc :: ts) (.statement made)) : macroNames [made] = [] := by
  generalize hts : word .ifWord loc :: ts = tokens at h
  cases h with
  | define => cases hts
  | _ => rfl

theorem Writes.nested {shape : Shape} (h : Writes ts shape) : Nested ts shape.macros := by
  induction h with
  | empty => exact .token rfl .nil
  | block _ ih => exact ih
  | define name loc place lp rp hparams _ _ ih =>
    exact .declaration name loc place (.headed hparams.isPlain ih lp rp)
  | cond loc lp rp he _ ih => exact .token rfl (.headed he.isPlain ih lp rp)
  | condElse loc lp rp place he _ _ ih ihno =>
    exact .token rfl (.headed he.isPlain (ih.append (.token rfl ihno)) lp rp)
  | condElseIf loc lp rp place nested he _ hnext ih ihnext =>
    rw [Shape.macros, hnext.macroNames_cond] at ihnext
    exact .token rfl (.headed he.isPlain (ih.append (.token rfl ihnext)) lp rp)
  | repeatCount loc lp rp he _ ih => exact .token rfl (.headed he.isPlain ih lp rp)
  | repeatRange name loc lp place colon rp he _ ih =>
    exact .token rfl (.token rfl (.token rfl (.token rfl (.of_isPlain he.isPlain
      (.token rfl ih)))))
  | loop loc lp rp he _ ih => exact .token rfl (.headed he.isPlain ih lp rp)
  | assert loc lp rp semicolon he =>
    exact .token rfl (.headed he.isPlain (.token rfl .nil) lp rp)
  | assertMessage message loc lp comma place rp semicolon he =>
    exact .token rfl (.token rfl (.of_isPlain he.isPlain
      (.token rfl (.token rfl (.token rfl (.token rfl .nil))))))
  | bind name loc place assign semicolon he =>
    exact .token rfl (.token rfl (.token rfl (.of_isPlain he.isPlain (.token rfl .nil))))
  | assign name loc assign semicolon he =>
    exact .token rfl (.token rfl (.of_isPlain he.isPlain (.token rfl .nil)))
  | command name loc lp rp semicolon hargs =>
    exact .token rfl (.headed hargs.isPlain (.token rfl .nil) lp rp)
  | body loc close _ _ ih => exact .block loc close ih .nil
  | nil => exact .nil
  | cons _ _ ih ihrest =>
    rw [Shape.macros, macroNames_cons]
    exact ih.append ihrest

theorem Writes.closed {shape : Shape} (h : Writes ts shape) : Closed ts := h.nested.closed

/-- The statements at the front of a list declare no macro that the list does not declare there. -/
theorem Writes.macroNames_prefix {front all : List Statement} (h : Writes ts (.list front))
    (hall : Writes (ts ++ us) (.list all)) : macroNames front <+: macroNames all := by
  have hwhole := hall.nested.namesAt_append 0 []
  rw [List.append_assoc, h.nested.namesAt_append] at hwhole
  refine ⟨namesAt 0 (us ++ []), hwhole.trans ?_⟩
  exact List.append_nil _

end Grammar

end BlockScript
