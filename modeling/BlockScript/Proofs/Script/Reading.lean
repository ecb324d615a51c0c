import BlockScript.Script.Parser

/-!
# Steps of a parser

What the small parsers take from the front of a list of tokens, and how a sequence of parsers takes
apart. The place where the text ends is never touched.
-/
namespace BlockScript
set_option autoImplicit false

/-- The tokens between two points of a text. -/
structure Takes (input : TokenList) (ts : List Located) (rest : TokenList) : Prop where
  tokens : input.tokens = ts ++ rest.tokens
  stop : rest.stop = input.stop

theorem Takes.nil (input : TokenList) : Takes input [] input := ⟨rfl, rfl⟩

theorem Takes.append {input middle rest : TokenList} {ts us : List Located}
    (h : Takes input ts middle) (h' : Takes middle us rest) : Takes input (ts ++ us) rest := by
  refine ⟨?_, h'.stop.trans h.stop⟩
  rw [h.tokens, h'.tokens, List.append_assoc]

theorem Takes.here_eq {input rest : TokenList} {t : Located} {ts : List Located}
    (h : Takes input (t :: ts) rest) :
    (input.tokens.head?.map Located.loc).getD input.stop = t.loc := by
  rw [h.tokens]
  rfl

theorem Takes.input_eq {input rest : TokenList} {ts : List Located} (h : Takes input ts rest) :
    input = ⟨ts ++ rest.tokens, rest.stop⟩ := by
  obtain ⟨tokens, stop⟩ := input
  obtain ⟨htokens, hstop⟩ := h
  dsimp only at htokens hstop
  rw [htokens, hstop]

theorem Takes.cons {t : Located} {ts us : List Located} {stop : Location} {rest : TokenList}
    (h : Takes ⟨ts, stop⟩ us rest) : Takes ⟨t :: ts, stop⟩ (t :: us) rest :=
  ⟨congrArg (t :: ·) h.tokens, h.stop⟩

namespace Parser

variable {α β : Type}

/-! ## Sequences -/

theorem bind_ok {p : Parser α} {f : α → Parser β} {input middle : TokenList} {a : α}
    (h : p input = .ok (a, middle)) : (p >>= f) input = f a middle := by
  dsimp only [bind]
  rw [h]

theorem bind_error {p : Parser α} {f : α → Parser β} {input : TokenList} {error : SyntaxError}
    (h : p input = .error error) : (p >>= f) input = .error error := by
  dsimp only [bind]
  rw [h]

/-- A sequence succeeds part by part. -/
theorem bind_eq_ok {p : Parser α} {f : α → Parser β} {input rest : TokenList} {b : β}
    (h : (p >>= f) input = .ok (b, rest)) :
    ∃ a middle, p input = .ok (a, middle) ∧ f a middle = .ok (b, rest) := by
  dsimp only [bind] at h
  cases hp : p input with
  | error e =>
    rw [hp] at h
    cases h
  | ok pair =>
    obtain ⟨a, middle⟩ := pair
    rw [hp] at h
    exact ⟨a, middle, rfl, h⟩

/-- A sequence fails in its first part, or behind it. -/
theorem bind_eq_error {p : Parser α} {f : α → Parser β} {input : TokenList} {error : SyntaxError}
    (h : (p >>= f) input = .error error) :
    p input = .error error ∨ ∃ a middle, p input = .ok (a, middle) ∧ f a middle = .error error := by
  dsimp only [bind] at h
  cases hp : p input with
  | error e =>
    rw [hp] at h
    cases h
    exact .inl rfl
  | ok pair =>
    obtain ⟨a, middle⟩ := pair
    rw [hp] at h
    exact .inr ⟨a, middle, rfl, h⟩

theorem pure_eq_ok {a b : α} {input rest : TokenList}
    (h : (pure a : Parser α) input = .ok (b, rest)) : a = b ∧ input = rest := by
  change Except.ok (a, input) = _ at h
  cases h
  exact ⟨rfl, rfl⟩

/-! ## Single tokens -/

theorem here_eq_ok {loc : Location} {input rest : TokenList} (h : here input = .ok (loc, rest)) :
    (input.tokens.head?.map Located.loc).getD input.stop = loc ∧ input = rest := by
  change Except.ok (_, input) = _ at h
  cases h
  exact ⟨rfl, rfl⟩

theorem peek_eq (input : TokenList) :
    peek input = .ok (input.tokens.head?.map Located.token, input) := rfl

theorem peek_cons (token : Token) (loc stop : Location) (ts : List Located) :
    peek ⟨⟨token, loc⟩ :: ts, stop⟩ = .ok (some token, ⟨⟨token, loc⟩ :: ts, stop⟩) := rfl

theorem peek_eq_ok {found : Option Token} {input rest : TokenList}
    (h : peek input = .ok (found, rest)) :
    input.tokens.head?.map Located.token = found ∧ input = rest := by
  change Except.ok (_, input) = _ at h
  cases h
  exact ⟨rfl, rfl⟩

theorem expect_eq_ok {symbol : Symbol} {what : String} {input rest : TokenList} {loc : Location} :
    expect symbol what input = .ok (loc, rest) ↔ Takes input [⟨.symbol symbol, loc⟩] rest := by
  obtain ⟨tokens, stop⟩ := input
  rcases tokens with _ | ⟨⟨token, place⟩, ts⟩
  · constructor
    · intro h
      change Except.error _ = _ at h
      cases h
    · rintro ⟨htokens, -⟩
      cases htokens
  · change (if some token = some (.symbol symbol) then _ else _ : Parser Location) _ = _ ↔ _
    by_cases htoken : token = .symbol symbol
    · subst htoken
      rw [if_pos rfl]
      constructor
      · intro h
        change Except.ok (place, (⟨ts, stop⟩ : TokenList)) = _ at h
        cases h
        exact ⟨rfl, rfl⟩
      · rintro ⟨htokens, hstop⟩
        obtain ⟨tokens, stop'⟩ := rest
        cases htokens
        cases hstop
        rfl
    · rw [if_neg (fun h => htoken (Option.some.inj h))]
      constructor
      · intro h
        change Except.error _ = _ at h
        cases h
      · rintro ⟨htokens, -⟩
        cases htokens
        exact absurd rfl htoken

theorem expectName_eq_ok {what name : String} {input rest : TokenList} :
    expectName what input = .ok (name, rest) ↔ ∃ loc, Takes input [⟨.name name, loc⟩] rest := by
  obtain ⟨tokens, stop⟩ := input
  constructor
  · intro h
    rcases tokens with _ | ⟨⟨token, place⟩, ts⟩
    · change Except.error _ = _ at h
      cases h
    · cases token with
      | name spelling =>
        change Except.ok (spelling, (⟨ts, stop⟩ : TokenList)) = _ at h
        cases h
        exact ⟨place, rfl, rfl⟩
      | _ =>
        change Except.error _ = _ at h
        cases h
  · rintro ⟨loc, htokens, hstop⟩
    obtain ⟨tokens', stop'⟩ := rest
    cases htokens
    cases hstop
    rfl

theorem expectText_eq_ok {what value : String} {input rest : TokenList} :
    expectText what input = .ok (value, rest) ↔ ∃ loc, Takes input [⟨.text value, loc⟩] rest := by
  obtain ⟨tokens, stop⟩ := input
  constructor
  · intro h
    rcases tokens with _ | ⟨⟨token, place⟩, ts⟩
    · change Except.error _ = _ at h
      cases h
    · cases token with
      | text value =>
        change Except.ok (value, (⟨ts, stop⟩ : TokenList)) = _ at h
        cases h
        exact ⟨place, rfl, rfl⟩
      | _ =>
        change Except.error _ = _ at h
        cases h
  · rintro ⟨loc, htokens, hstop⟩
    obtain ⟨tokens', stop'⟩ := rest
    cases htokens
    cases hstop
    rfl

/-- The token is taken if it comes next, and else nothing is. -/
theorem eat_eq (token : Token) (input : TokenList) :
    eat token input =
      if input.tokens.head?.map Located.token = some token then
        .ok (true, ⟨input.tokens.tail, input.stop⟩)
      else .ok (false, input) := by
  change (if input.tokens.head?.map Located.token = some token then _
    else _ : Parser Bool) input = _
  split <;> rfl

theorem eat_eq_true {token : Token} {input rest : TokenList} :
    eat token input = .ok (true, rest) ↔ ∃ loc, Takes input [⟨token, loc⟩] rest := by
  rw [eat_eq]
  obtain ⟨tokens, stop⟩ := input
  constructor
  · intro h
    split at h
    · next hhead =>
      cases h
      rcases tokens with _ | ⟨⟨token', place⟩, ts⟩
      · cases hhead
      · cases hhead
        exact ⟨place, rfl, rfl⟩
    · cases h
  · rintro ⟨loc, htokens, hstop⟩
    obtain ⟨tokens', stop'⟩ := rest
    cases htokens
    cases hstop
    exact if_pos rfl

theorem eat_eq_false {token : Token} {input rest : TokenList} :
    eat token input = .ok (false, rest) ↔
      input.tokens.head?.map Located.token ≠ some token ∧ input = rest := by
  rw [eat_eq]
  split
  · next hhead => exact ⟨fun h => (by cases h), fun h => absurd hhead h.1⟩
  · next hhead =>
    constructor
    · intro h
      cases h
      exact ⟨hhead, rfl⟩
    · rintro ⟨-, rfl⟩
      rfl

/-! ## Tokens in front -/

theorem expect_cons (symbol : Symbol) (what : String) (loc stop : Location) (ts : List Located) :
    expect symbol what ⟨⟨.symbol symbol, loc⟩ :: ts, stop⟩ = .ok (loc, ⟨ts, stop⟩) :=
  expect_eq_ok.2 ⟨rfl, rfl⟩

theorem expectName_cons (what name : String) (loc stop : Location) (ts : List Located) :
    expectName what ⟨⟨.name name, loc⟩ :: ts, stop⟩ = .ok (name, ⟨ts, stop⟩) := rfl

theorem expectText_cons (what value : String) (loc stop : Location) (ts : List Located) :
    expectText what ⟨⟨.text value, loc⟩ :: ts, stop⟩ = .ok (value, ⟨ts, stop⟩) := rfl

theorem eat_cons (token : Token) (loc stop : Location) (ts : List Located) :
    eat token ⟨⟨token, loc⟩ :: ts, stop⟩ = .ok (true, ⟨ts, stop⟩) :=
  eat_eq_true.2 ⟨loc, rfl, rfl⟩

theorem eat_of_ne {token : Token} {ts : List Located} (h : ∀ t ∈ ts.head?, t.token ≠ token)
    (stop : Location) : eat token ⟨ts, stop⟩ = .ok (false, ⟨ts, stop⟩) := by
  refine eat_eq_false.2 ⟨fun htoken => ?_, rfl⟩
  obtain ⟨t, ht, heq⟩ := Option.map_eq_some_iff.1 htoken
  exact h t ht heq

theorem eat_cons_ne {token : Token} {t : Located} (h : t.token ≠ token) (ts : List Located)
    (stop : Location) : eat token ⟨t :: ts, stop⟩ = .ok (false, ⟨t :: ts, stop⟩) := by
  refine eat_of_ne (fun u hu => ?_) stop
  cases hu
  exact h

end Parser

end BlockScript
