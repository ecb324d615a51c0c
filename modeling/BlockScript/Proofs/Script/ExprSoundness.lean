import BlockScript.Proofs.Script.Grammar
import BlockScript.Proofs.Script.Reading

/-!
# Expressions that are read are spelled

Whatever a parser of expressions answers, the tokens that it has taken spell that answer. An
expression is read as far as it goes, so a selector at its end is not followed by a plus and another
axis; this is what the rule for sums asks for.
-/
namespace BlockScript
set_option autoImplicit false

namespace Grammar

open BlockScript.Parser BlockScript.Script

/-! ## Operators -/

/-- A table of the operators of one level. -/
def IsTable (op? : Token → Option BinaryOp) (level : Level) : Prop :=
  ∀ token op, op? token = some op ↔ token = .symbol (sign op) ∧ levelOf op = level

def opTable : Level → Token → Option BinaryOp
  | .disjunction => disjunctionOp?
  | .conjunction => conjunctionOp?
  | .comparison => comparisonOp?
  | .sum => additiveOp?
  | .product => multiplicativeOp?
  | .unary => fun _ => none
  | .primary => fun _ => none

theorem opTable_isTable (level : Level) : IsTable (opTable level) level := by
  intro token op
  constructor
  · intro h
    cases token with
    | symbol s => cases level <;> cases s <;> cases h <;> exact ⟨rfl, rfl⟩
    | _ => cases level <;> cases h
  · rintro ⟨rfl, rfl⟩
    cases op <;> rfl

theorem unaryOp?_eq_some {token : Token} {op : UnaryOp} :
    unaryOp? token = some op ↔ token = .symbol (unarySign op) := by
  constructor
  · intro h
    unfold unaryOp? at h
    split at h <;> cases h <;> rfl
  · rintro rfl
    cases op <;> rfl

/-! ## Selectors -/

/-- A plus with an axis after it. -/
def joinsOn : List Located → Bool
  | ⟨.symbol .plus, _⟩ :: ⟨.axis .., _⟩ :: _ => true
  | _ => false

/-- A selector at the end that would go on in what follows. -/
def Open (ts rest : List Located) : Prop := endsInAxis ts = true ∧ joinsOn rest = true

theorem terms_succ (n : Nat) (axis : Axis) (magnitude : Option Int32) (spelling : String)
    (loc stop : Location) (ts : List Located) :
    terms (n + 1) ⟨⟨.axis axis magnitude spelling, loc⟩ :: ts, stop⟩ =
      if joinsOn ts then
        (do return ⟨axis, magnitude.getD 1⟩ :: (← terms n) : Parser (List Term)) ⟨ts.tail, stop⟩
      else .ok ([⟨axis, magnitude.getD 1⟩], ⟨ts, stop⟩) := by
  rcases ts with _ | ⟨⟨token, place⟩, more⟩
  · rfl
  · cases token with
    | symbol s =>
      cases s with
      | plus =>
        rcases more with _ | ⟨⟨next, place'⟩, more⟩
        · rfl
        · cases next <;> rfl
      | _ => rfl
    | _ => rfl

theorem joinsOn_eq_true {ts : List Located} (h : joinsOn ts = true) :
    ∃ plus axis magnitude spelling loc more,
      ts = mark .plus plus :: ⟨.axis axis magnitude spelling, loc⟩ :: more := by
  unfold joinsOn at h
  split at h
  · exact ⟨_, _, _, _, _, _, rfl⟩
  · cases h

theorem endsInAxis_append {ts us : List Located} (h : us ≠ []) :
    endsInAxis (ts ++ us) = endsInAxis us := by
  unfold endsInAxis
  rw [List.getLast?_append, List.getLast?_eq_some_getLast h, Option.some_or]

theorem endsInAxis_cons {t : Located} {ts : List Located} (h : ts ≠ []) :
    endsInAxis (t :: ts) = endsInAxis ts := by
  change endsInAxis ([t] ++ ts) = _
  exact endsInAxis_append h

theorem Terms.ne_nil {ts : List Located} {terms : List Term} (h : Terms ts terms) : ts ≠ [] := by
  cases h <;> exact List.cons_ne_nil _ _

theorem Terms.endsInAxis {ts : List Located} {terms : List Term} (h : Terms ts terms) :
    endsInAxis ts = true := by
  induction h with
  | one => rfl
  | more axis magnitude spelling loc plus h ih =>
    rw [endsInAxis_cons (List.cons_ne_nil _ _), endsInAxis_cons h.ne_nil]
    exact ih

/-- The number that is counted down lasts as long as the tokens do. -/
theorem terms_sound {n : Nat} {axis : Axis} {magnitude : Option Int32} {spelling : String}
    {loc stop : Location} {ts : List Located} {list : List Term} {rest : TokenList}
    (hn : ts.length < n)
    (h : terms n ⟨⟨.axis axis magnitude spelling, loc⟩ :: ts, stop⟩ = .ok (list, rest)) :
    ∃ us, Takes ⟨⟨.axis axis magnitude spelling, loc⟩ :: ts, stop⟩ us rest ∧ Terms us list ∧
      joinsOn rest.tokens = false := by
  induction n generalizing axis magnitude spelling loc ts list with
  | zero => omega
  | succ n ih =>
    rw [terms_succ] at h
    split at h
    · next hjoins =>
      obtain ⟨plus, axis', magnitude', spelling', loc', more, rfl⟩ := joinsOn_eq_true hjoins
      obtain ⟨terms', middle, hterms, hrest⟩ := bind_eq_ok h
      obtain ⟨rfl, rfl⟩ := pure_eq_ok hrest
      rw [List.length_cons, List.length_cons] at hn
      obtain ⟨us, htakes, hus, hends⟩ := ih (by omega) hterms
      refine ⟨⟨.axis axis magnitude spelling, loc⟩ :: mark .plus plus :: us, ⟨?_, htakes.stop⟩,
        .more axis magnitude spelling loc plus hus, hends⟩
      have htokens := htakes.tokens
      dsimp only [List.tail_cons] at htokens
      rw [List.cons_append, List.cons_append, ← htokens]
    · next hjoins =>
      cases h
      exact ⟨[⟨.axis axis magnitude spelling, loc⟩], ⟨rfl, rfl⟩, .one axis magnitude spelling loc,
        Bool.eq_false_iff.2 hjoins⟩

theorem shorthand_eq (input : TokenList) :
    shorthand input =
      match input.tokens with
      | ⟨.symbol .caret, _⟩ :: more => .ok ([⟨.up, 1⟩], ⟨more, input.stop⟩)
      | ⟨.symbol .underscore, _⟩ :: more => .ok ([⟨.down, 1⟩], ⟨more, input.stop⟩)
      | _ => .ok ([], input) := by
  obtain ⟨tokens, stop⟩ := input
  rcases tokens with _ | ⟨⟨token, loc⟩, more⟩
  · rfl
  · cases token with
    | symbol s => cases s <;> rfl
    | _ => rfl

theorem endsInAxis_mark (ts : List Located) (s : Symbol) (loc : Location) :
    endsInAxis (ts ++ [mark s loc]) = false :=
  endsInAxis_append (List.cons_ne_nil _ _)

theorem selector_sound {axis : Axis} {magnitude : Option Int32} {spelling : String}
    {loc stop : Location} {ts : List Located} {value : Selector} {rest : TokenList}
    (h : selector ⟨⟨.axis axis magnitude spelling, loc⟩ :: ts, stop⟩ = .ok (value, rest)) :
    ∃ us, Takes ⟨⟨.axis axis magnitude spelling, loc⟩ :: ts, stop⟩ us rest ∧ Chain us value ∧
      ¬ Open us rest.tokens := by
  obtain ⟨list, middle, hterms, h⟩ := bind_eq_ok (p := terms (ts.length + 1)) h
  obtain ⟨us, htakes, hus, hends⟩ := terms_sound (Nat.lt_succ_self _) hterms
  obtain ⟨last, final, hlast, h⟩ := bind_eq_ok h
  obtain ⟨rfl, rfl⟩ := pure_eq_ok h
  rw [shorthand_eq] at hlast
  split at hlast
  · next more heq =>
    cases hlast
    exact ⟨_, htakes.append ⟨heq, rfl⟩, .up hus _, fun hopen => by
      rw [Open, endsInAxis_mark] at hopen
      exact absurd hopen.1 Bool.false_ne_true⟩
  · next more heq =>
    cases hlast
    exact ⟨_, htakes.append ⟨heq, rfl⟩, .down hus _, fun hopen => by
      rw [Open, endsInAxis_mark] at hopen
      exact absurd hopen.1 Bool.false_ne_true⟩
  · cases hlast
    rw [List.append_nil]
    exact ⟨us, htakes, .plain hus, fun hopen => by
      rw [Open, hends] at hopen
      exact absurd hopen.2 Bool.false_ne_true⟩

/-! ## Levels -/

/-- The tokens that an expression may start with. -/
def startsExpr : Token → Bool
  | .int _ | .text _ | .axis .. | .name _ => true
  | .keyword k => k = .trueWord ∨ k = .falseWord
  | .symbol s => s = .leftParen ∨ s = .bang ∨ s = .minus

theorem Terms.head {ts : List Located} {terms : List Term} (h : Terms ts terms) :
    ∃ axis magnitude spelling loc more, ts = ⟨.axis axis magnitude spelling, loc⟩ :: more := by
  cases h <;> exact ⟨_, _, _, _, _, rfl⟩

theorem Chain.head {ts : List Located} {value : Selector} (h : Chain ts value) :
    ∃ axis magnitude spelling loc more, ts = ⟨.axis axis magnitude spelling, loc⟩ :: more := by
  cases h with
  | plain h => exact h.head
  | up h loc =>
    obtain ⟨_, _, _, _, _, rfl⟩ := h.head
    exact ⟨_, _, _, _, _, rfl⟩
  | down h loc =>
    obtain ⟨_, _, _, _, _, rfl⟩ := h.head
    exact ⟨_, _, _, _, _, rfl⟩

theorem Spells.head {ts : List Located} {level : Level} {e : Expr}
    (h : Spells ts (.expr level e)) :
    ∃ first more, ts = first :: more ∧ startsExpr first.token = true := by
  generalize hform : Form.expr level e = form at h
  induction h generalizing level e with
  | lift hlevel h ih => exact ih rfl
  | binary op loc hleft hright hapart ihleft ihright =>
    obtain ⟨first, more, rfl, hstarts⟩ := ihleft rfl
    exact ⟨first, _, rfl, hstarts⟩
  | unary op loc h ih => exact ⟨_, _, rfl, by cases op <;> rfl⟩
  | selector h =>
    obtain ⟨axis, magnitude, spelling, loc, more, heq⟩ := h.head
    cases heq
    exact ⟨_, _, rfl, rfl⟩
  | noArgs => cases hform
  | lastArg hkey h ih => cases hform
  | moreArgs comma hkey h hlist hrest ih ihrest => cases hform
  | _ => exact ⟨_, _, rfl, rfl⟩

theorem Spells.ne_nil {ts : List Located} {level : Level} {e : Expr}
    (h : Spells ts (.expr level e)) : ts ≠ [] := by
  obtain ⟨first, more, rfl, -⟩ := h.head
  exact List.cons_ne_nil _ _

/-- An operator joins two selectors exactly if the left one would go on over it. -/
theorem joined_iff_open {left right rest : List Located} {s : Symbol} (loc : Location)
    (hright : right ≠ []) :
    Joined left s right ↔ Open left (mark s loc :: (right ++ rest)) := by
  obtain ⟨⟨token, place⟩, more, rfl⟩ := List.exists_cons_of_ne_nil hright
  constructor
  · rintro ⟨hleft, rfl, hstarts⟩
    refine ⟨hleft, ?_⟩
    cases token with
    | axis => rfl
    | _ => cases hstarts
  · rintro ⟨hleft, hjoins⟩
    obtain ⟨_, _, _, _, _, _, heq⟩ := joinsOn_eq_true hjoins
    cases heq
    exact ⟨hleft, rfl, rfl⟩

theorem open_binary {left right rest : List Located} {op : Located} (hright : right ≠ []) :
    Open (left ++ op :: right) rest ↔ Open right rest := by
  unfold Open
  rw [endsInAxis_append (List.cons_ne_nil _ _), endsInAxis_cons hright]

/-- An expression stands in front of what is left, and it does not stop inside a selector. -/
def Reads (level : Level) (input : TokenList) (e : Expr) (rest : TokenList) : Prop :=
  ∃ ts, Takes input ts rest ∧ Spells ts (.expr level e) ∧ ¬ Open ts rest.tokens

/-- What the parser takes spells its answer. -/
def Sound (p : Parser Expr) (level : Level) : Prop :=
  ∀ input e rest, p input = .ok (e, rest) → Reads level input e rest

theorem Reads.lift (level : Level) (hlevel : level ≠ .primary) {input rest : TokenList} {e : Expr}
    (h : Reads level.tighter input e rest) : Reads level input e rest := by
  obtain ⟨ts, htakes, hspells, hends⟩ := h
  exact ⟨ts, htakes, .lift hlevel hspells, hends⟩

theorem Reads.binary {op : BinaryOp} {loc stop : Location} {more : List Located}
    {input rest : TokenList} {l r : Expr}
    (hleft : Reads (leftLevel op) input l ⟨mark (sign op) loc :: more, stop⟩)
    (hright : Reads (levelOf op).tighter ⟨more, stop⟩ r rest) :
    Reads (levelOf op) input (.binary op l r) rest := by
  obtain ⟨ts, hts, hl, hends⟩ := hleft
  obtain ⟨us, hus, hr, hends'⟩ := hright
  have hapart : ¬ Joined ts (sign op) us := by
    rw [joined_iff_open loc hr.ne_nil, ← hus.tokens]
    exact hends
  exact ⟨_, hts.append hus.cons, .binary op loc hl hr hapart,
    fun hopen => hends' ((open_binary hr.ne_nil).1 hopen)⟩

/-- The operator that comes next. -/
def nextOp (op? : Token → Option BinaryOp) (ts : List Located) : Option BinaryOp :=
  (ts.head?.map Located.token).bind op?

theorem nextOp_eq_some {op? : Token → Option BinaryOp} {level : Level} (htable : IsTable op? level)
    {ts : List Located} {op : BinaryOp} (h : nextOp op? ts = some op) :
    ∃ loc more, ts = mark (sign op) loc :: more ∧ levelOf op = level := by
  rcases ts with _ | ⟨⟨token, loc⟩, more⟩
  · cases h
  · obtain ⟨rfl, hlevel⟩ := (htable token op).1 h
    exact ⟨loc, more, rfl, hlevel⟩

theorem chainFrom_stop {operand : Parser Expr} {op? : Token → Option BinaryOp} {input : TokenList}
    (h : nextOp op? input.tokens = none) (n : Nat) (left : Expr) :
    chainFrom operand op? n left input = .ok (left, input) := by
  cases n with
  | zero => rfl
  | succ n =>
    refine (bind_ok (peek_eq input)).trans ?_
    unfold nextOp at h
    rw [h]
    rfl

theorem chainFrom_step {operand : Parser Expr} {op? : Token → Option BinaryOp} {op : BinaryOp}
    {token : Token} (h : op? token = some op) (n : Nat) (left : Expr) (loc stop : Location)
    (ts : List Located) :
    chainFrom operand op? (n + 1) left ⟨⟨token, loc⟩ :: ts, stop⟩ =
      (operand >>= fun right => chainFrom operand op? n (.binary op left right)) ⟨ts, stop⟩ := by
  refine (bind_ok (peek_cons token loc stop ts)).trans ?_
  rw [Option.bind_some, h]
  rfl

theorem leftLevel_eq {op : BinaryOp} {level : Level} (hop : levelOf op = level)
    (hlevel : level ≠ .comparison) : leftLevel op = level := by
  subst hop
  exact if_neg hlevel

theorem chainFrom_sound {operand : Parser Expr} {op? : Token → Option BinaryOp} {level : Level}
    (htable : IsTable op? level) (hlevel : level ≠ .comparison)
    (hoperand : Sound operand level.tighter) {n : Nat} {left e : Expr}
    {input middle rest : TokenList} (hleft : Reads level input left middle)
    (h : chainFrom operand op? n left middle = .ok (e, rest)) : Reads level input e rest := by
  induction n generalizing left middle with
  | zero =>
    obtain ⟨rfl, rfl⟩ := pure_eq_ok h
    exact hleft
  | succ n ih =>
    cases hop : nextOp op? middle.tokens with
    | none =>
      rw [chainFrom_stop hop] at h
      cases h
      exact hleft
    | some op =>
      obtain ⟨loc, more, heq, rfl⟩ := nextOp_eq_some htable hop
      obtain ⟨tokens, stop⟩ := middle
      dsimp only at heq
      subst heq
      rw [chainFrom_step ((htable _ op).2 ⟨rfl, rfl⟩)] at h
      obtain ⟨right, final, hright, h⟩ := bind_eq_ok h
      rw [← leftLevel_eq rfl hlevel] at hleft
      exact ih (hleft.binary (hoperand _ _ _ hright)) h

theorem chain_sound {operand : Parser Expr} {op? : Token → Option BinaryOp} {level : Level}
    (htable : IsTable op? level) (hlevel : level ≠ .comparison) (hprimary : level ≠ .primary)
    (hoperand : Sound operand level.tighter) : Sound (chain operand op?) level := by
  intro input e rest h
  obtain ⟨left, middle, hleft, h⟩ := bind_eq_ok h
  exact chainFrom_sound htable hlevel hoperand (.lift level hprimary (hoperand _ _ _ hleft)) h

theorem comparison_alone {operand : Parser Expr} {input rest : TokenList} {left : Expr}
    (hleft : operand input = .ok (left, rest)) (hop : nextOp comparisonOp? rest.tokens = none) :
    comparison operand input = .ok (left, rest) := by
  refine (bind_ok hleft).trans ?_
  refine (bind_ok (peek_eq rest)).trans ?_
  unfold nextOp at hop
  rw [hop]
  rfl

theorem comparison_pair {operand : Parser Expr} {input : TokenList} {left : Expr} {op : BinaryOp}
    {token : Token} {loc stop : Location} {ts : List Located}
    (hleft : operand input = .ok (left, ⟨⟨token, loc⟩ :: ts, stop⟩))
    (hop : comparisonOp? token = some op) :
    comparison operand input =
      (do
        let right ← operand
        match (← peek).bind comparisonOp? with
        | some _ => fail .chainedComparison
        | none => return .binary op left right : Parser Expr) ⟨ts, stop⟩ := by
  refine (bind_ok hleft).trans ?_
  refine (bind_ok (peek_cons token loc stop ts)).trans ?_
  rw [Option.bind_some, hop]
  rfl

theorem comparison_sound {operand : Parser Expr} (hoperand : Sound operand .sum) :
    Sound (comparison operand) .comparison := by
  intro input e rest h
  obtain ⟨left, middle, hleft, -⟩ := bind_eq_ok h
  have hreads := hoperand _ _ _ hleft
  cases hop : nextOp comparisonOp? middle.tokens with
  | none =>
    rw [comparison_alone hleft hop] at h
    cases h
    exact .lift .comparison (by decide) hreads
  | some op =>
    obtain ⟨loc, more, heq, hlevel⟩ := nextOp_eq_some (opTable_isTable .comparison) hop
    obtain ⟨tokens, stop⟩ := middle
    dsimp only at heq
    subst heq
    rw [comparison_pair hleft ((opTable_isTable .comparison _ op).2 ⟨rfl, hlevel⟩)] at h
    obtain ⟨right, final, hright, h⟩ := bind_eq_ok h
    obtain ⟨found, final, hfound, h⟩ := bind_eq_ok h
    cases hfound
    cases hnext : (final.tokens.head?.map Located.token).bind comparisonOp? with
    | some op' =>
      rw [hnext] at h
      change Except.error _ = _ at h
      cases h
    | none =>
      rw [hnext] at h
      obtain ⟨rfl, rfl⟩ := pure_eq_ok h
      have hleftLevel : leftLevel op = .sum := if_pos hlevel
      have htighter : (levelOf op).tighter = .sum := by rw [hlevel]; rfl
      rw [← hlevel]
      rw [← hleftLevel] at hreads
      exact hreads.binary (htighter ▸ hoperand _ _ _ hright)

/-! ## Unary operators -/

def isSign (t : Located) : Bool := (unaryOp? t.token).isSome

def signs (ts : List Located) : List (UnaryOp × Location) :=
  (ts.takeWhile isSign).filterMap (located unaryOp?)

theorem unary_eq (primary : Parser Expr) (ts : List Located) (stop : Location) :
    unary primary ⟨ts, stop⟩ =
      (do
        let operand ← primary
        return (signs ts).foldr (fun (op, loc) inner => .unary op inner loc) operand :
          Parser Expr) ⟨ts.dropWhile isSign, stop⟩ := rfl

theorem unary_sign (primary : Parser Expr) (op : UnaryOp) (loc stop : Location)
    (ts : List Located) :
    unary primary ⟨mark (unarySign op) loc :: ts, stop⟩ =
      (do return .unary op (← unary primary) loc : Parser Expr) ⟨ts, stop⟩ := by
  have hsigns : signs (mark (unarySign op) loc :: ts) = (op, loc) :: signs ts := by
    cases op <;> rfl
  have hafter : (mark (unarySign op) loc :: ts).dropWhile isSign = ts.dropWhile isSign := by
    cases op <;> rfl
  rw [unary_eq, hsigns, hafter]
  cases hprimary : primary ⟨ts.dropWhile isSign, stop⟩ with
  | error error =>
    rw [bind_error hprimary]
    symm
    refine bind_error ?_
    rw [unary_eq]
    exact bind_error hprimary
  | ok pair =>
    rw [bind_ok hprimary]
    symm
    exact bind_ok (bind_ok hprimary)

/-- Without an operator in front nothing happens at this level. -/
theorem unary_plain (primary : Parser Expr) {input : TokenList}
    (h : ∀ t ∈ input.tokens.head?, unaryOp? t.token = none) :
    unary primary input = primary input := by
  obtain ⟨tokens, stop⟩ := input
  have hsigns : signs tokens = [] ∧ tokens.dropWhile isSign = tokens := by
    rcases tokens with _ | ⟨t, ts⟩
    · exact ⟨rfl, rfl⟩
    · have ht : ¬ isSign t = true := by
        rw [isSign, h t rfl]
        exact Bool.false_ne_true
      exact ⟨by rw [signs, List.takeWhile_cons_of_neg ht]; rfl, List.dropWhile_cons_of_neg ht⟩
  rw [unary_eq, hsigns.1, hsigns.2]
  cases hprimary : primary ⟨tokens, stop⟩ with
  | error error => exact bind_error hprimary
  | ok pair => exact bind_ok hprimary

theorem unary_sound {primary : Parser Expr} (hprimary : Sound primary .primary) :
    Sound (unary primary) .unary := by
  intro input e rest h
  obtain ⟨tokens, stop⟩ := input
  induction tokens generalizing e with
  | nil =>
    rw [unary_plain primary (fun t ht => (by cases ht))] at h
    exact .lift .unary (by decide) (hprimary _ _ _ h)
  | cons t ts ih =>
    cases hop : unaryOp? t.token with
    | none =>
      rw [unary_plain primary (fun u hu => (by cases hu; exact hop))] at h
      exact .lift .unary (by decide) (hprimary _ _ _ h)
    | some op =>
      obtain ⟨token, loc⟩ := t
      obtain rfl : token = _ := unaryOp?_eq_some.1 hop
      rw [unary_sign] at h
      obtain ⟨inner, middle, hinner, h⟩ := bind_eq_ok h
      obtain ⟨rfl, rfl⟩ := pure_eq_ok h
      obtain ⟨us, hus, hspells, hends⟩ := ih inner hinner
      refine ⟨_, hus.cons, .unary op loc hspells, ?_⟩
      rw [Open, endsInAxis_cons hspells.ne_nil]
      exact hends

/-! ## Calls -/

theorem key_eq (input : TokenList) :
    key input =
      match input.tokens with
      | ⟨.name spelling, _⟩ :: ⟨.symbol .colon, _⟩ :: more =>
        .ok (some spelling, ⟨more, input.stop⟩)
      | ⟨.axis _ _ spelling, _⟩ :: ⟨.symbol .colon, _⟩ :: more =>
        .ok (some spelling, ⟨more, input.stop⟩)
      | _ => .ok (none, input) := by
  obtain ⟨tokens, stop⟩ := input
  rcases tokens with _ | ⟨⟨token, loc⟩, _ | ⟨⟨second, loc'⟩, more⟩⟩
  · rfl
  · cases token <;> rfl
  · cases token with
    | name spelling =>
      cases second with
      | symbol s => cases s <;> rfl
      | _ => rfl
    | axis axis magnitude spelling =>
      cases second with
      | symbol s => cases s <;> rfl
      | _ => rfl
    | _ => rfl

theorem key_sound {input rest : TokenList} {found : Option String}
    (h : key input = .ok (found, rest)) : ∃ ks, Takes input ks rest ∧ Key ks found := by
  rw [key_eq] at h
  split at h
  · next heq =>
    cases h
    exact ⟨_, ⟨heq, rfl⟩, .name _ _ _⟩
  · next heq =>
    cases h
    exact ⟨_, ⟨heq, rfl⟩, .axis _ _ _ _ _⟩
  · cases h
    exact ⟨[], .nil _, .positional⟩

theorem argsFrom_sound {expr : Parser Expr} (hexpr : Sound expr .disjunction) {n : Nat}
    {input rest : TokenList} {list : List (Arg Expr)}
    (h : argsFrom expr n input = .ok (list, rest)) :
    ∃ ts rp, Takes input (ts ++ [mark .rightParen rp]) rest ∧ Spells ts (.args list) ∧
      list ≠ [] := by
  induction n generalizing input list with
  | zero =>
    change Except.error _ = _ at h
    cases h
  | succ n ih =>
    obtain ⟨found, afterKey, hkey, h⟩ := bind_eq_ok h
    obtain ⟨ks, hks, hfound⟩ := key_sound hkey
    obtain ⟨value, afterValue, hvalue, h⟩ := bind_eq_ok h
    obtain ⟨ts, hts, hspells, -⟩ := hexpr _ _ _ hvalue
    obtain ⟨comma, afterComma, hcomma, h⟩ := bind_eq_ok h
    cases comma with
    | true =>
      obtain ⟨loc, hloc⟩ := eat_eq_true.1 hcomma
      obtain ⟨others, final, hothers, h⟩ := bind_eq_ok h
      obtain ⟨rfl, rfl⟩ := pure_eq_ok h
      obtain ⟨us, rp, hus, hargs, hne⟩ := ih hothers
      refine ⟨_, rp, ?_, .moreArgs loc hfound hspells hne hargs, List.cons_ne_nil _ _⟩
      have htakes := (hks.append hts).append (hloc.append hus)
      rw [List.append_assoc]
      exact htakes
    | false =>
      obtain ⟨-, rfl⟩ := eat_eq_false.1 hcomma
      obtain ⟨rp, final, hrp, h⟩ := bind_eq_ok h
      obtain ⟨rfl, rfl⟩ := pure_eq_ok h
      exact ⟨_, rp, (hks.append hts).append (expect_eq_ok.1 hrp), .lastArg hfound hspells,
        List.cons_ne_nil _ _⟩

theorem args_sound {expr : Parser Expr} (hexpr : Sound expr .disjunction) {input rest : TokenList}
    {list : List (Arg Expr)} (h : args expr input = .ok (list, rest)) :
    ∃ ts rp, Takes input (ts ++ [mark .rightParen rp]) rest ∧ Spells ts (.args list) := by
  obtain ⟨close, middle, hclose, h⟩ := bind_eq_ok h
  cases close with
  | true =>
    obtain ⟨rp, hrp⟩ := eat_eq_true.1 hclose
    obtain ⟨rfl, rfl⟩ := pure_eq_ok h
    exact ⟨[], rp, hrp, .noArgs⟩
  | false =>
    obtain ⟨-, rfl⟩ := eat_eq_false.1 hclose
    obtain ⟨ts, rp, hts, hargs, -⟩ := argsFrom_sound hexpr (n := input.tokens.length) h
    exact ⟨ts, rp, hts, hargs⟩

theorem criteria_eq_ok {list : List (Arg Expr)} {found : List (String × Expr)}
    {input rest : TokenList} :
    criteria list input = .ok (found, rest) ↔
      list = found.map (fun (key, e) => ⟨some key, e⟩) ∧ input = rest := by
  induction list generalizing found with
  | nil =>
    constructor
    · intro h
      obtain ⟨rfl, rfl⟩ := pure_eq_ok h
      exact ⟨rfl, rfl⟩
    · rintro ⟨hlist, rfl⟩
      rw [List.map_eq_nil_iff.1 hlist.symm]
      rfl
  | cons arg list ih =>
    obtain ⟨_ | key, value⟩ := arg
    · constructor
      · intro h
        change Except.error _ = _ at h
        cases h
      · rintro ⟨hlist, -⟩
        cases found <;> cases hlist
    · constructor
      · intro h
        obtain ⟨others, middle, hothers, h⟩ := bind_eq_ok h
        obtain ⟨rfl, rfl⟩ := pure_eq_ok h
        obtain ⟨rfl, rfl⟩ := ih.1 hothers
        exact ⟨rfl, rfl⟩
      · rintro ⟨hlist, rfl⟩
        rcases found with _ | ⟨⟨key', value'⟩, found⟩
        · cases hlist
        · cases hlist
          exact bind_ok (ih.2 ⟨rfl, rfl⟩)

theorem not_open_mark (ts rest : List Located) (s : Symbol) (loc : Location) :
    ¬ Open (ts ++ [mark s loc]) rest := by
  rw [Open, endsInAxis_mark]
  exact fun hopen => Bool.false_ne_true hopen.1

/-- What follows a name and an opening parenthesis makes a call of them. -/
def Calls (name : String) (loc : Location) (input : TokenList) (e : Expr) (rest : TokenList) :
    Prop :=
  ∃ ts rp, Takes input (ts ++ [mark .rightParen rp]) rest ∧
    ∀ lp, Spells (⟨.name name, loc⟩ :: mark .leftParen lp :: (ts ++ [mark .rightParen rp]))
      (.expr .primary e)

theorem worldForm_sound {expr : Parser Expr} (hexpr : Sound expr .disjunction) {loc : Location}
    {input rest : TokenList} {e : Expr} (h : worldForm expr loc input = .ok (e, rest)) :
    Calls "world" loc input e rest := by
  obtain ⟨x, afterX, hx, h⟩ := bind_eq_ok h
  obtain ⟨first, afterFirst, hfirst, h⟩ := bind_eq_ok h
  obtain ⟨y, afterY, hy, h⟩ := bind_eq_ok h
  obtain ⟨second, afterSecond, hsecond, h⟩ := bind_eq_ok h
  obtain ⟨z, afterZ, hz, h⟩ := bind_eq_ok h
  obtain ⟨rp, final, hrp, h⟩ := bind_eq_ok h
  obtain ⟨rfl, rfl⟩ := pure_eq_ok h
  obtain ⟨xs, hxs, hx, -⟩ := hexpr _ _ _ hx
  obtain ⟨ys, hys, hy, -⟩ := hexpr _ _ _ hy
  obtain ⟨zs, hzs, hz, -⟩ := hexpr _ _ _ hz
  have hlast := hzs.append (expect_eq_ok.1 hrp)
  have hwhole := hxs.append ((expect_eq_ok.1 hfirst).append
    (hys.append ((expect_eq_ok.1 hsecond).append hlast)))
  refine ⟨xs ++ mark .comma first :: (ys ++ mark .comma second :: zs), rp, ?_, fun lp => ?_⟩
  · simpa using hwhole
  · simpa using Spells.world loc lp first second rp hx hy hz

theorem waypointForm_sound {loc : Location} {input rest : TokenList} {e : Expr}
    (h : waypointForm loc input = .ok (e, rest)) : Calls "waypoint" loc input e rest := by
  obtain ⟨name, afterName, hname, h⟩ := bind_eq_ok h
  obtain ⟨rp, final, hrp, h⟩ := bind_eq_ok h
  obtain ⟨rfl, rfl⟩ := pure_eq_ok h
  obtain ⟨place, hplace⟩ := expectText_eq_ok.1 hname
  exact ⟨[⟨.text name, place⟩], rp, hplace.append (expect_eq_ok.1 hrp),
    fun lp => .waypoint name loc lp place rp⟩

theorem nameForm_sound {expr : Parser Expr} (hexpr : Sound expr .disjunction) {name : String}
    {loc : Location} {input rest : TokenList} {e : Expr}
    (h : nameForm expr name loc input = .ok (e, rest)) :
    ∃ ts, Takes input ts rest ∧ Spells (⟨.name name, loc⟩ :: ts) (.expr .primary e) ∧
      ¬ Open (⟨.name name, loc⟩ :: ts) rest.tokens := by
  obtain ⟨paren, middle, hparen, h⟩ := bind_eq_ok h
  cases paren with
  | false =>
    obtain ⟨-, rfl⟩ := eat_eq_false.1 hparen
    obtain ⟨rfl, rfl⟩ := pure_eq_ok h
    exact ⟨[], .nil _, .ident name loc, fun hopen => by cases hopen.1⟩
  | true =>
    obtain ⟨lp, hlp⟩ := eat_eq_true.1 hparen
    have hcalls : Calls name loc middle e rest := by
      rw [if_pos rfl] at h
      split at h
      · next hname => exact hname ▸ worldForm_sound hexpr h
      · next hworld =>
        split at h
        · next hname => exact hname ▸ waypointForm_sound h
        · next hwaypoint =>
          split at h
          · next hname =>
            obtain ⟨list, afterArgs, hlist, h⟩ := bind_eq_ok h
            obtain ⟨found, final, hfound, h⟩ := bind_eq_ok h
            obtain ⟨rfl, rfl⟩ := pure_eq_ok h
            obtain ⟨rfl, rfl⟩ := criteria_eq_ok.1 hfound
            obtain ⟨ts, rp, hts, hspells⟩ := args_sound hexpr hlist
            exact hname ▸ ⟨ts, rp, hts, fun lp => .query loc lp rp hspells⟩
          · next hblock =>
            obtain ⟨list, afterArgs, hlist, h⟩ := bind_eq_ok h
            obtain ⟨rfl, rfl⟩ := pure_eq_ok h
            obtain ⟨ts, rp, hts, hspells⟩ := args_sound hexpr hlist
            have hname : name ∉ formNames := by
              simp only [formNames, List.mem_cons, List.not_mem_nil, or_false, not_or]
              exact ⟨hworld, hwaypoint, hblock⟩
            exact ⟨ts, rp, hts, fun lp => .predicate name loc lp rp hname hspells⟩
    obtain ⟨ts, rp, hts, hspells⟩ := hcalls
    exact ⟨_, hlp.append hts, hspells lp,
      not_open_mark (⟨.name name, loc⟩ :: mark .leftParen lp :: ts) rest.tokens .rightParen rp⟩

theorem Reads.single {t : Located} {e : Expr} (hspells : Spells [t] (.expr .primary e))
    (haxis : isAxis t.token = false) (ts : List Located) (stop : Location) :
    Reads .primary ⟨t :: ts, stop⟩ e ⟨ts, stop⟩ := by
  refine ⟨[t], ⟨rfl, rfl⟩, hspells, fun hopen => ?_⟩
  have hends : isAxis t.token = true := hopen.1
  rw [haxis] at hends
  cases hends

theorem primary_sound {expr : Parser Expr} (hexpr : Sound expr .disjunction) :
    Sound (primary expr) .primary := by
  rintro ⟨tokens, stop⟩ e rest h
  rcases tokens with _ | ⟨⟨token, loc⟩, ts⟩
  · change Except.error _ = _ at h
    cases h
  · cases token with
    | int value =>
      change Except.ok (Expr.int value loc, (⟨ts, stop⟩ : TokenList)) = _ at h
      cases h
      exact .single (.int value loc) rfl ts stop
    | text value =>
      change Except.ok (Expr.text value loc, (⟨ts, stop⟩ : TokenList)) = _ at h
      cases h
      exact .single (.text value loc) rfl ts stop
    | keyword k =>
      cases k with
      | trueWord =>
        change Except.ok (Expr.bool true loc, (⟨ts, stop⟩ : TokenList)) = _ at h
        cases h
        exact .single (.trueWord loc) rfl ts stop
      | falseWord =>
        change Except.ok (Expr.bool false loc, (⟨ts, stop⟩ : TokenList)) = _ at h
        cases h
        exact .single (.falseWord loc) rfl ts stop
      | _ =>
        change Except.error _ = _ at h
        cases h
    | symbol s =>
      cases s with
      | leftParen =>
        change (do
          let inner ← expr
          let _ ← expect .rightParen "')'"
          return inner : Parser Expr) ⟨ts, stop⟩ = _ at h
        obtain ⟨inner, middle, hinner, h⟩ := bind_eq_ok h
        obtain ⟨rp, final, hrp, h⟩ := bind_eq_ok h
        obtain ⟨rfl, rfl⟩ := pure_eq_ok h
        obtain ⟨us, hus, hspells, -⟩ := hexpr _ _ _ hinner
        exact ⟨_, (hus.append (expect_eq_ok.1 hrp)).cons, .parens loc rp hspells,
          not_open_mark (mark .leftParen loc :: us) final.tokens .rightParen rp⟩
      | _ =>
        change Except.error _ = _ at h
        cases h
    | axis axis magnitude spelling =>
      change (do return .selector (← selector) loc : Parser Expr) _ = _ at h
      obtain ⟨value, middle, hvalue, h⟩ := bind_eq_ok h
      obtain ⟨rfl, rfl⟩ := pure_eq_ok h
      obtain ⟨us, hus, hchain, hends⟩ := selector_sound hvalue
      obtain ⟨axis', magnitude', spelling', loc', more, rfl⟩ := hchain.head
      obtain rfl : loc' = loc := by
        have htokens := hus.tokens
        cases htokens
        rfl
      exact ⟨_, hus, .selector hchain, hends⟩
    | name name =>
      change nameForm expr name loc ⟨ts, stop⟩ = _ at h
      obtain ⟨us, hus, hspells, hends⟩ := nameForm_sound hexpr h
      exact ⟨_, hus.cons, hspells, hends⟩

theorem levels_sound {primary : Parser Expr} (h : Sound primary .primary) :
    Sound (levels primary) .disjunction := by
  have hproduct : Sound (chain (unary primary) multiplicativeOp?) .product :=
    chain_sound (opTable_isTable .product) (by decide) (by decide) (unary_sound h)
  have hsum : Sound (chain (chain (unary primary) multiplicativeOp?) additiveOp?) .sum :=
    chain_sound (opTable_isTable .sum) (by decide) (by decide) hproduct
  have hconjunction : Sound (chain (comparison _) conjunctionOp?) .conjunction :=
    chain_sound (opTable_isTable .conjunction) (by decide) (by decide) (comparison_sound hsum)
  exact chain_sound (opTable_isTable .disjunction) (by decide) (by decide) hconjunction

theorem exprWithin_sound (n : Nat) : Sound (exprWithin n) .disjunction := by
  induction n with
  | zero =>
    intro input e rest h
    change Except.error _ = _ at h
    cases h
  | succ n ih => exact levels_sound (primary_sound ih)

theorem expr_sound : Sound expr .disjunction := by
  intro input e rest h
  exact exprWithin_sound input.tokens.length input e rest h

end Grammar

end BlockScript
