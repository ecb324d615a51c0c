import BlockScript.Proofs.Script.Relocation

/-!
# Comments are blanks

A comment that the lexer skips may be replaced by a blank. The tokens before it are cut off as they
were, although some of them have looked at what comes next; those behind it only stand elsewhere. So
the program is the same up to places, and an error is the same error.
-/
namespace BlockScript
set_option autoImplicit false

/-- The lexer comes to stand before a comment and skips it. A comment goes up to the end of its line,
or up to the first `*/`. -/
structure SkipsComment (before comment after : List Char) : Prop where
  reached : ∃ cuts, Lexer.Reads (before ++ (comment ++ after)) cuts (comment ++ after)
  filler : Filler comment after
  opening : comment.head? = some '/'

/-- Two results that agree up to places are both values or are both errors. -/
theorem relocated_eq {α β : Type} {f : Location → Location} {change : α → β}
    {x y : Except SyntaxError α} (h : relocated f change x = relocated f change y) :
    (∀ a, x = .ok a → ∃ b, y = .ok b ∧ change b = change a) ∧
      ∀ e, x = .error e → ∃ e', y = .error e' ∧ e'.fault = e.fault := by
  constructor
  · rintro a rfl
    cases y with
    | error e => cases h
    | ok b => exact ⟨b, rfl, (Except.ok.inj h).symm⟩
  · rintro e rfl
    cases y with
    | ok b => cases h
    | error e' => exact ⟨e', rfl, (congrArg SyntaxError.fault (Except.error.inj h)).symm⟩

theorem TokenList.tokens_of_relocate_default {list list' : TokenList}
    (h : list'.relocate (fun _ => default) = list.relocate fun _ => default) :
    list'.tokens.map Located.token = list.tokens.map Located.token := by
  have htokens := congrArg (fun l : TokenList => l.tokens.map Located.token) h
  simpa only [relocate, List.map_map, Function.comp_def, Located.relocate] using htokens

/-- What is cut off without a token adds no token. -/
theorem Lexer.Cut.tokens_concat (loc : Location) (cuts : List Cut) (text : List Char) :
    tokens loc (cuts ++ [⟨none, text⟩]) = tokens loc cuts := by
  induction cuts generalizing loc with
  | nil => rfl
  | cons cut cuts ih => rw [List.cons_append, tokens, tokens, ih]

namespace SkipsComment

variable {before comment after : List Char}

/-- The tokens around the comment are the tokens around a blank, but for their places. -/
theorem relocated_scan (h : SkipsComment before comment after) (loc : Location) :
    relocated (fun _ => default) (TokenList.relocate fun _ => default)
        (Lexer.scan loc (before ++ (comment ++ after))) =
      relocated (fun _ => default) (TokenList.relocate fun _ => default)
        (Lexer.scan loc (before ++ ' ' :: after)) := by
  obtain ⟨⟨cuts, hcuts⟩, hfiller, hopening⟩ := h
  have hline : (∀ e ∈ (comment ++ after).head?, e = '\n') → ' ' = '\n' := by
    intro hall
    rw [List.head?_append, hopening] at hall
    exact absurd (hall '/' rfl) (by decide)
  have hspaced := hcuts.before_blank (d := ' ') rfl hline after
  obtain rfl : Lexer.Cut.texts cuts = before := List.append_cancel_right hcuts.split
  obtain ⟨c, cs, rfl, hlexeme⟩ := hfiller.lexeme
  have hcomment := hcuts.append (.cons hlexeme (.nil after))
  have hblank := hspaced.append (.cons (if_pos rfl : Lexer.lexeme ' ' after = _) (.nil after))
  rw [hcomment.scan, hblank.scan, relocated_behind, relocated_behind, Lexer.Cut.tokens_concat,
    Lexer.Cut.tokens_concat, Lexer.relocated_scan_default]

end SkipsComment

/-- Comments are blanks. Where the lexer skips a comment, a blank in its place gives the same tokens
up to their places, and the same error where there is one. So the program that is read is the same up
to places, and a text that is no script is refused for the same reason. -/
theorem comment_replaced_by_blank {source : String} {before comment after : List Char}
    (hsource : source.toList = before ++ (comment ++ after)) (h : SkipsComment before comment after) :
    let spaced := String.ofList (before ++ ' ' :: after)
    (∀ list, tokenize source = .ok list → ∃ list', tokenize spaced = .ok list' ∧
        list'.tokens.map Located.token = list.tokens.map Located.token) ∧
      (∀ error, tokenize source = .error error → ∃ error', tokenize spaced = .error error' ∧
        error'.message = error.message) ∧
      (∀ program, parse source = .ok program → ∃ program', parse spaced = .ok program' ∧
        program'.unplaced = program.unplaced) ∧
      ∀ error, parse source = .error error → ∃ error', parse spaced = .error error' ∧
        error'.message = error.message := by
  intro spaced
  have hscan : relocated (fun _ => default) (TokenList.relocate fun _ => default) (tokenize source) =
      relocated (fun _ => default) (TokenList.relocate fun _ => default) (tokenize spaced) := by
    rw [tokenize, tokenize, hsource, String.toList_ofList]
    exact h.relocated_scan .start
  have hparse : relocated (fun _ => default) (Program.relocate fun _ => default) (parse source) =
      relocated (fun _ => default) (Program.relocate fun _ => default) (parse spaced) := by
    rw [relocated_parse, relocated_parse, hscan]
  obtain ⟨htokens, hfault⟩ := relocated_eq hscan
  obtain ⟨hprogram, hrefused⟩ := relocated_eq hparse
  refine ⟨fun list hlist => ?_, fun error herror => ?_, fun program hok => ?_, fun error herror => ?_⟩
  · obtain ⟨list', hlist', hsame⟩ := htokens list hlist
    exact ⟨list', hlist', TokenList.tokens_of_relocate_default hsame⟩
  · obtain ⟨error', herror', hsame⟩ := hfault error herror
    exact ⟨error', herror', congrArg SyntaxFault.message hsame⟩
  · obtain ⟨program', hok', hsame⟩ := hprogram program hok
    rw [Program.relocate_default, Program.relocate_default] at hsame
    exact ⟨program', hok', hsame⟩
  · obtain ⟨error', herror', hsame⟩ := hrefused error herror
    exact ⟨error', herror', congrArg SyntaxFault.message hsame⟩

/-- The comment keeps the minus sign away from the axis, and so does the blank. -/
theorem comment_replaced_by_blank_after_axis :
    ∃ program program', parse "a(f/**/-2);" = .ok program ∧ parse "a(f -2);" = .ok program' ∧
      program'.unplaced = program.unplaced := by
  have hread : (parse "a(f/**/-2);").toBool = true := by decide +kernel
  have hname : Lexer.lexeme 'a' ['(', 'f', '/', '*', '*', '/', '-', '2', ')', ';'] =
      .ok ⟨some (.name "a"), ['a'], ['(', 'f', '/', '*', '*', '/', '-', '2', ')', ';']⟩ :=
    rfl
  have hparen : Lexer.lexeme '(' ['f', '/', '*', '*', '/', '-', '2', ')', ';'] =
      .ok ⟨some (.symbol .leftParen), ['('], ['f', '/', '*', '*', '/', '-', '2', ')', ';']⟩ := rfl
  have haxis : Lexer.lexeme 'f' ['/', '*', '*', '/', '-', '2', ')', ';'] =
      .ok ⟨some (.axis .forward none "f"), ['f'], ['/', '*', '*', '/', '-', '2', ')', ';']⟩ :=
    rfl
  have hclosed : ¬ ['*', '/'] <:+: ([] : List Char) ++ ['*'] := by decide
  have hsource : "a(f/**/-2);".toList =
      ['a', '(', 'f'] ++ (['/', '*', '*', '/'] ++ ['-', '2', ')', ';']) := rfl
  have hskips : SkipsComment ['a', '(', 'f'] ['/', '*', '*', '/'] ['-', '2', ')', ';'] :=
    ⟨⟨_, .cons hname (.cons hparen (.cons haxis (.nil _)))⟩, .block _ hclosed, rfl⟩
  obtain ⟨-, -, hsame, -⟩ := comment_replaced_by_blank hsource hskips
  cases hparse : parse "a(f/**/-2);" with
  | error error =>
    rw [hparse] at hread
    cases hread
  | ok program =>
    obtain ⟨program', hspaced, hunplaced⟩ := hsame program hparse
    exact ⟨program, program', rfl, hspaced, hunplaced⟩

end BlockScript
