import BlockScript.Proofs.Token.Prefixes

/-!
# The places of tokens

Where a text starts is known to the lexer only as a place to count from. A text that starts elsewhere
has the same tokens, and the same error if it has one, at places that have moved along.
-/
namespace BlockScript
set_option autoImplicit false

def Located.relocate (f : Location → Location) (t : Located) : Located := { t with loc := f t.loc }

def TokenList.relocate (f : Location → Location) (list : TokenList) : TokenList :=
  ⟨list.tokens.map (Located.relocate f), f list.stop⟩

def SyntaxError.relocate (f : Location → Location) (error : SyntaxError) : SyntaxError :=
  { error with loc := f error.loc }

/-- A result with its value changed, or an error with its place changed. -/
def relocated {α β : Type} (f : Location → Location) (change : α → β) :
    Except SyntaxError α → Except SyntaxError β
  | .ok a => .ok (change a)
  | .error error => .error (error.relocate f)

theorem relocated_behind (f : Location → Location) (before : List Located)
    (result : Except SyntaxError TokenList) :
    relocated f (TokenList.relocate f) (result.map (.behind before)) =
      (relocated f (TokenList.relocate f) result).map
        (.behind (before.map (Located.relocate f))) := by
  cases result with
  | error error => rfl
  | ok list =>
    simp only [Except.map, relocated, TokenList.relocate, TokenList.behind, List.map_append]

namespace Lexer

variable {f g : Location → Location}

section

variable (hnext : ∀ a b, f a = g b → ∀ c, f (a.next c) = g (b.next c))

include hnext

theorem relocated_after (text : List Char) {a b : Location} (h : f a = g b) :
    f (a.after text) = g (b.after text) := by
  induction text generalizing a b with
  | nil => exact h
  | cons c cs ih => exact ih (hnext a b h c)

/-- Two places to start from give the same tokens, at places that differ as the two places do. -/
theorem relocated_scan {a b : Location} (h : f a = g b) :
    ∀ input : List Char, relocated f (TokenList.relocate f) (scan a input) =
      relocated g (TokenList.relocate g) (scan b input)
  | [] => by
    rw [scan_nil, scan_nil]
    simp only [relocated, TokenList.relocate, List.map_nil, h]
  | c :: cs => by
    cases hlexeme : lexeme c cs with
    | error fault =>
      rw [scan_of_error hlexeme, scan_of_error hlexeme]
      simp only [relocated, SyntaxError.relocate, h]
    | ok l =>
      have hrest := relocated_scan (relocated_after hnext l.text h) l.rest
      have htoken : (l.token.map (⟨·, a⟩)).toList.map (Located.relocate f) =
          (l.token.map (⟨·, b⟩)).toList.map (Located.relocate g) := by
        cases l.token with
        | none => rfl
        | some token => simp only [Option.map_some, Option.toList_some, List.map_cons, List.map_nil,
            Located.relocate, h]
      rw [scan_of_lexeme hlexeme, scan_of_lexeme hlexeme, relocated_behind, relocated_behind, hrest,
        htoken]
termination_by input => input.length
decreasing_by exact lexeme_rest_lt hlexeme

end

/-- Where a text starts matters to nothing but places. -/
theorem relocated_scan_default (a b : Location) (input : List Char) :
    relocated (fun _ => default) (TokenList.relocate fun _ => default) (scan a input) =
      relocated (fun _ => default) (TokenList.relocate fun _ => default) (scan b input) :=
  relocated_scan (a := a) (b := b) (fun _ _ _ _ => rfl) rfl input

end Lexer

end BlockScript
