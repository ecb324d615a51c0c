import BlockScript.Proofs.Script.Reading

/-!
# Parsers that call themselves

A parser that calls itself, or turns back in a loop, does so only behind a token that it has taken.
So its equation has one solution and no other, and the parser that counts down the tokens that are
left is this solution: the count never runs out, and nothing is ever asked of it at zero but at the
end of the text. All this is told by comparing two parsers on inputs of less than so many tokens.
-/
namespace BlockScript
set_option autoImplicit false

theorem Takes.length_eq {input rest : TokenList} {ts : List Located} (h : Takes input ts rest) :
    input.tokens.length = ts.length + rest.tokens.length := by
  rw [h.tokens, List.length_append]

/-- Both parsers answer alike, and a value is returned behind at least so many tokens. -/
structure AlikeAt {α : Type} (least : Nat) (p q : Parser α) (input : TokenList) : Prop where
  same : p input = q input
  takes : ∀ a rest, p input = .ok (a, rest) → ∃ ts, Takes input ts rest ∧ least ≤ ts.length

/-- Both parsers answer alike wherever less than `n` tokens are left. -/
def Alike {α : Type} (least n : Nat) (p q : Parser α) : Prop :=
  ∀ input, input.tokens.length < n → AlikeAt least p q input

variable {α β : Type} {least n : Nat} {p q : Parser α} {f g : α → Parser β}

namespace AlikeAt

theorem of_error {input : TokenList} {error : SyntaxError} (h : p input = .error error)
    (h' : q input = .error error) : AlikeAt least p q input :=
  ⟨h.trans h'.symm, fun a rest hok => by rw [h] at hok; cases hok⟩

theorem fail (fault : SyntaxFault) (input : TokenList) :
    AlikeAt least (Parser.fail fault : Parser α) (Parser.fail fault) input := of_error rfl rfl

theorem symm {input : TokenList} (h : AlikeAt least p q input) : AlikeAt least q p input :=
  ⟨h.same.symm, fun a rest hok => h.takes a rest (h.same.trans hok)⟩

theorem trans {input : TokenList} {r : Parser α} (h : AlikeAt least p q input)
    (h' : AlikeAt least q r input) : AlikeAt least p r input :=
  ⟨h.same.trans h'.same, h.takes⟩

theorem mono {least' : Nat} {input : TokenList} (h : AlikeAt least p q input)
    (hleast : least' ≤ least) : AlikeAt least' p q input := by
  refine ⟨h.same, fun a rest hok => ?_⟩
  obtain ⟨ts, hts, htaken⟩ := h.takes a rest hok
  exact ⟨ts, hts, Nat.le_trans hleast htaken⟩

theorem behind {input rest : TokenList} {a : α} {ts : List Located}
    (hp : p input = .ok (a, rest)) (hq : q input = .ok (a, rest)) (hts : Takes input ts rest)
    (h : AlikeAt least (f a) (g a) rest) :
    AlikeAt (ts.length + least) (p >>= f) (q >>= g) input := by
  refine ⟨?_, fun b last hok => ?_⟩
  · rw [Parser.bind_ok hp, Parser.bind_ok hq, h.same]
  · rw [Parser.bind_ok hp] at hok
    obtain ⟨us, hus, htaken⟩ := h.takes b last hok
    refine ⟨ts ++ us, hts.append hus, ?_⟩
    rw [List.length_append]
    exact Nat.add_le_add_left htaken _

/-- A look at the tokens leaves them where they are. -/
theorem look {input : TokenList} {a : α} (hp : p input = .ok (a, input))
    (hq : q input = .ok (a, input)) (h : AlikeAt least (f a) (g a) input) :
    AlikeAt least (p >>= f) (q >>= g) input :=
  (behind hp hq (.nil input) h).mono (Nat.le_add_left least 0)

theorem bind {first second : Nat} {input : TokenList} (hp : AlikeAt first p q input)
    (hf : ∀ a rest, rest.tokens.length + first ≤ input.tokens.length →
      AlikeAt second (f a) (g a) rest) :
    AlikeAt (first + second) (p >>= f) (q >>= g) input := by
  cases h : p input with
  | error error => exact of_error (Parser.bind_error h) (Parser.bind_error (hp.same ▸ h))
  | ok pair =>
    obtain ⟨a, rest⟩ := pair
    obtain ⟨ts, hts, hfirst⟩ := hp.takes a rest h
    have hlength := hts.length_eq
    exact (behind h (hp.same ▸ h) hts (hf a rest (by omega))).mono (by omega)

/-- A token that is there is taken. -/
theorem advance {t : Located} {ts : List Located} {stop : Location} {f g : Unit → Parser β}
    (hn : ts.length < n) (h : Alike 0 n (f ()) (g ())) :
    AlikeAt 1 (Parser.advance >>= f) (Parser.advance >>= g) ⟨t :: ts, stop⟩ := by
  have hadvance : Parser.advance ⟨t :: ts, stop⟩ = .ok ((), ⟨ts, stop⟩) := rfl
  have htakes : Takes ⟨t :: ts, stop⟩ [t] ⟨ts, stop⟩ := ⟨rfl, rfl⟩
  exact behind hadvance hadvance htakes (h ⟨ts, stop⟩ hn)

end AlikeAt

namespace Alike

/-- No input has less than no tokens. -/
theorem on_none : Alike least 0 p q := fun _ hinput => absurd hinput (Nat.not_lt_zero _)

/-- How much is taken may not matter. -/
theorem anyway (h : Alike least n p q) : Alike 0 n p q :=
  fun input hinput => (h input hinput).mono (Nat.zero_le least)

theorem fewer (h : Alike least (n + 1) p q) : Alike least n p q :=
  fun input hinput => h input (Nat.lt_succ_of_lt hinput)

/-- Tokens are taken by the first part. -/
theorem bind (hp : Alike least n p q) (hf : ∀ a, Alike 0 n (f a) (g a)) :
    Alike least n (p >>= f) (q >>= g) :=
  fun input hinput => (hp input hinput).bind fun a rest hrest => hf a rest (by omega)

/-- Tokens are taken by the second part. -/
theorem bind_right (hp : Alike 0 n p q) (hf : ∀ a, Alike least n (f a) (g a)) :
    Alike least n (p >>= f) (q >>= g) := by
  intro input hinput
  have hboth := (hp input hinput).bind fun a rest hrest => hf a rest (by omega)
  rwa [Nat.zero_add] at hboth

/-- Where it does not matter what is taken. -/
theorem andThen (hp : Alike least n p q) (hf : ∀ a, Alike 0 n (f a) (g a)) :
    Alike 0 n (p >>= f) (q >>= g) :=
  (hp.bind hf).anyway

/-- Behind a token fewer are left. -/
theorem step (hp : Alike 1 (n + 1) p q) (hf : ∀ a, Alike 0 n (f a) (g a)) :
    Alike 1 (n + 1) (p >>= f) (q >>= g) :=
  fun input hinput => (hp input hinput).bind fun a rest hrest => hf a rest (by omega)

theorem ite {c : Prop} [Decidable c] {p' q' : Parser α} (hp : Alike least n p q)
    (hp' : Alike least n p' q') : Alike least n (if c then p else p') (if c then q else q') := by
  split
  · exact hp
  · exact hp'

theorem pure (a : α) : Alike 0 n (pure a : Parser α) (pure a) := by
  intro input _
  refine ⟨rfl, fun b rest hok => ?_⟩
  obtain ⟨-, rfl⟩ := Parser.pure_eq_ok hok
  exact ⟨[], .nil input, Nat.le_refl 0⟩

theorem of_takes (h : ∀ input a rest, p input = .ok (a, rest) →
    ∃ ts, Takes input ts rest ∧ least ≤ ts.length) : Alike least n p p :=
  fun input _ => ⟨rfl, h input⟩

/-- A look at the tokens takes none. -/
theorem of_look {look : TokenList → α} (h : ∀ input, p input = .ok (look input, input)) :
    Alike 0 n p p := by
  refine of_takes fun input a rest hok => ?_
  rw [h] at hok
  cases hok
  exact ⟨[], .nil input, Nat.le_refl 0⟩

theorem here : Alike 0 n Parser.here Parser.here := of_look fun _ => rfl

theorem peek : Alike 0 n Parser.peek Parser.peek := of_look fun _ => rfl

theorem peekSecond : Alike 0 n Parser.peekSecond Parser.peekSecond := of_look fun _ => rfl

theorem remaining : Alike 0 n Parser.remaining Parser.remaining := of_look fun _ => rfl

theorem advance : Alike 0 n Parser.advance Parser.advance := by
  refine of_takes ?_
  rintro ⟨tokens, stop⟩ a rest ⟨⟩
  cases tokens with
  | nil => exact ⟨[], .nil _, Nat.le_refl 0⟩
  | cons t ts => exact ⟨[t], ⟨rfl, rfl⟩, Nat.zero_le _⟩

theorem failAt (loc : Location) (fault : SyntaxFault) :
    Alike least n (Parser.failAt loc fault : Parser α) (Parser.failAt loc fault) :=
  fun _ _ => .of_error rfl rfl

theorem fail (fault : SyntaxFault) :
    Alike least n (Parser.fail fault : Parser α) (Parser.fail fault) :=
  fun input _ => .fail fault input

theorem failExpected (what : String) :
    Alike least n (Parser.failExpected what : Parser α) (Parser.failExpected what) :=
  fun _ _ => .of_error rfl rfl

theorem expect (symbol : Symbol) (what : String) :
    Alike 1 n (Parser.expect symbol what) (Parser.expect symbol what) :=
  of_takes fun _ _ _ hok => ⟨_, Parser.expect_eq_ok.1 hok, Nat.le_refl 1⟩

theorem expectName (what : String) :
    Alike 1 n (Parser.expectName what) (Parser.expectName what) := by
  refine of_takes fun input name rest hok => ?_
  obtain ⟨loc, htakes⟩ := Parser.expectName_eq_ok.1 hok
  exact ⟨_, htakes, Nat.le_refl 1⟩

theorem expectText (what : String) :
    Alike 1 n (Parser.expectText what) (Parser.expectText what) := by
  refine of_takes fun input value rest hok => ?_
  obtain ⟨loc, htakes⟩ := Parser.expectText_eq_ok.1 hok
  exact ⟨_, htakes, Nat.le_refl 1⟩

theorem eat (token : Token) : Alike 0 n (Parser.eat token) (Parser.eat token) := by
  refine of_takes fun input found rest hok => ?_
  cases found with
  | true =>
    obtain ⟨loc, htakes⟩ := Parser.eat_eq_true.1 hok
    exact ⟨_, htakes, Nat.zero_le _⟩
  | false =>
    obtain ⟨-, rfl⟩ := Parser.eat_eq_false.1 hok
    exact ⟨[], .nil input, Nat.le_refl 0⟩

/-- The next token is looked at, or the end. -/
theorem peek_bind {f g : Option Token → Parser β}
    (hend : ∀ stop, AlikeAt least (f none) (g none) ⟨[], stop⟩)
    (hnext : ∀ t ts stop, ts.length < n →
      AlikeAt least (f (some t.token)) (g (some t.token)) ⟨t :: ts, stop⟩) :
    Alike least (n + 1) (Parser.peek >>= f) (Parser.peek >>= g) := by
  rintro ⟨tokens, stop⟩ hinput
  cases tokens with
  | nil => exact .look rfl rfl (hend stop)
  | cons t ts => exact .look rfl rfl (hnext t ts stop (Nat.lt_of_succ_lt_succ hinput))

/-- Where the token is found it is taken. -/
theorem eat_ite {token : Token} {p' q' : Parser α} (hfound : Alike 0 (n - 1) p q)
    (hother : Alike 1 n p' q') :
    Alike 1 n (do if ← Parser.eat token then p else p')
      (do if ← Parser.eat token then q else q') := by
  intro input hinput
  let f (found : Bool) : Parser α := if found then p else p'
  let g (found : Bool) : Parser α := if found then q else q'
  by_cases hhead : input.tokens.head?.map Located.token = some token
  · have heat := Parser.eat_eq token input
    rw [if_pos hhead] at heat
    obtain ⟨loc, htakes⟩ := Parser.eat_eq_true.1 heat
    have hlength := htakes.length_eq
    rw [List.length_singleton] at hlength
    have hrest : input.tokens.tail.length < n - 1 := by
      dsimp only at hlength
      omega
    exact .behind (f := f) (g := g) heat heat htakes (hfound _ hrest)
  · have heat := Parser.eat_eq_false.2 ⟨hhead, rfl⟩
    exact .look (f := f) (g := g) heat heat (hother input hinput)

/-- What a turn takes is taken whatever the count. -/
theorem of_turns {χ : Type} (within : Nat → χ → Parser α)
    (hzero : ∀ x, Alike least n (within 0 x) (within 0 x))
    (hsucc : ∀ m n, (∀ x, Alike 0 n (within m x) (within m x)) →
      ∀ x, Alike least (n + 1) (within (m + 1) x) (within (m + 1) x)) (m : Nat) :
    ∀ x, Alike least n (within m x) (within m x) := by
  cases n with
  | zero => exact fun x => .on_none
  | succ n =>
    induction m with
    | zero => exact hzero
    | succ m ih => exact hsucc m n fun x => (ih x).anyway.fewer

end Alike

/-! ## Counting down -/

section Counting

variable {χ : Type} {turn : (χ → Parser α) → χ → Parser α} {within : Nat → χ → Parser α}

/-- A turn goes on with the next one only behind a token: on less than `n + 1` tokens it asks for
it on less than `n`, and what it would answer elsewhere does not matter. -/
def Guarded (turn : (χ → Parser α) → χ → Parser α) : Prop :=
  ∀ n again again', (∀ x, Alike 0 n (again x) (again' x)) →
    ∀ x, Alike 0 (n + 1) (turn again x) (turn again' x)

/-- A parser that turns back to itself: the calls come to an end, each on fewer tokens than the one
before, and the equation leaves no choice what they answer. -/
structure Descends (turn : (χ → Parser α) → χ → Parser α) (parser : χ → Parser α) : Prop where
  guarded : Guarded turn
  sole : ∀ p, p = turn p ↔ p = parser

/-- A turn that goes on with nothing in its hands. -/
def plainTurn (turn : Parser α → Parser α) (again : Unit → Parser α) (_ : Unit) : Parser α :=
  turn (again ())

/-- A family that counts down the turns of a parser. At zero it answers for the end of the text. -/
structure Counts (turn : (χ → Parser α) → χ → Parser α) (within : Nat → χ → Parser α) : Prop where
  zero : ∀ again x stop, within 0 x ⟨[], stop⟩ = turn again x ⟨[], stop⟩
  succ : ∀ n, within (n + 1) = turn (within n)
  guarded : Guarded turn

/-- The count starts at the number of tokens left. -/
def counted (within : Nat → χ → Parser α) (x : χ) : Parser α := do within (← Parser.remaining) x

namespace Counts

/-- At the end of the text it does not matter what the next turn would be. -/
theorem zero_alike (h : Counts turn within) (again again' : χ → Parser α) (x : χ) :
    Alike 0 1 (turn again x) (turn again' x) :=
  h.guarded 0 again again' (fun _ => .on_none) x

theorem alike_zero (h : Counts turn within) (again : χ → Parser α) (x : χ) :
    Alike 0 1 (turn again x) (within 0 x) := by
  rintro ⟨tokens, stop⟩ hinput
  obtain rfl := List.length_eq_zero_iff.1 (Nat.lt_one_iff.1 hinput)
  exact ⟨(h.zero again x stop).symm, (h.zero_alike again again x _ hinput).takes⟩

/-- A solution answers as the count does, as long as this is not below the tokens left. -/
theorem solution_alike (h : Counts turn within) {p : χ → Parser α} (hp : p = turn p) (n : Nat) :
    ∀ x, Alike 0 (n + 1) (p x) (within n x) := by
  induction n with
  | zero =>
    intro x
    rw [hp]
    exact h.alike_zero p x
  | succ n ih =>
    intro x
    rw [h.succ, hp]
    exact h.guarded (n + 1) p (within n) ih x

/-- A higher count changes nothing. -/
theorem stable (h : Counts turn within) {m n : Nat} (hmn : m ≤ n) :
    ∀ x, Alike 0 (m + 1) (within n x) (within m x) := by
  induction m generalizing n with
  | zero =>
    intro x input hinput
    cases n with
    | zero =>
      have hzero := h.alike_zero (within 0) x input hinput
      exact hzero.symm.trans hzero
    | succ n =>
      rw [h.succ]
      exact h.alike_zero (within n) x input hinput
  | succ m ih =>
    intro x
    obtain ⟨n, rfl⟩ := Nat.exists_eq_add_of_le' (Nat.le_trans (Nat.le_add_left 1 m) hmn)
    rw [h.succ, h.succ]
    exact h.guarded (m + 1) (within n) (within m) (ih (Nat.le_of_succ_le_succ hmn)) x

theorem counted_alike (h : Counts turn within) (n : Nat) (x : χ) :
    Alike 0 (n + 1) (within n x) (counted within x) := by
  intro input hinput
  have hstable := h.stable (Nat.le_of_lt_succ hinput) x input (Nat.lt_succ_self _)
  exact ⟨hstable.same, hstable.takes⟩

theorem counted_eq (h : Counts turn within) : counted within = turn (counted within) := by
  funext x ⟨tokens, stop⟩
  cases tokens with
  | nil => exact h.zero (counted within) x stop
  | cons t ts =>
    have hturn := h.guarded (ts.length + 1) _ _ (h.counted_alike ts.length) x ⟨t :: ts, stop⟩
      (Nat.lt_succ_self _)
    change within (ts.length + 1) x _ = _
    rw [h.succ]
    exact hturn.same

/-- The family that counts down is the one parser that turns back to itself. -/
theorem descends (h : Counts turn within) : Descends turn (counted within) where
  guarded := h.guarded
  sole p := by
    constructor
    · intro hp
      funext x input
      exact (h.solution_alike hp input.tokens.length x input (Nat.lt_succ_self _)).same
    · rintro rfl
      exact h.counted_eq

end Counts

end Counting

end BlockScript
