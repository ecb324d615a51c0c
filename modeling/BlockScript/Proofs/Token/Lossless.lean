import BlockScript.Proofs.Token.Lexemes
import Mathlib.Data.List.Induction

/-!
# Nothing is lost between tokens

A text that is read is made of the texts of its tokens and of the filler between them: blanks and
comments. The place of a token is counted in the text before it. A text that is not read has such a
beginning as well, and behind it the construct that is at fault.
-/
namespace BlockScript
set_option autoImplicit false

/-! ## Places -/

namespace Location

/-- The place after a text: one line more than it has newlines, and one column more than it has
characters since the last of them. -/
def behind (before : List Char) : Location :=
  ⟨1 + before.count '\n', 1 + (before.reverse.takeWhile (· ≠ '\n')).length⟩

theorem after_start (text : List Char) : start.after text = .behind text := by
  induction text using List.reverseRecOn with
  | nil => rfl
  | append_singleton text c ih =>
    rw [after_append, ih]
    by_cases hc : c = '\n'
    · subst hc
      simp [next, behind, Nat.add_assoc]
    · simp [next, behind, hc, Nat.add_comm]

theorem behind_append (before text : List Char) :
    behind (before ++ text) = (behind before).after text := by
  rw [← after_start, after_append, after_start]

/-- One place stands before another in a text. -/
def Before (a b : Location) : Prop := a.line < b.line ∨ a.line = b.line ∧ a.column < b.column

theorem Before.trans {a b c : Location} (h : a.Before b) (h' : b.Before c) : a.Before c := by
  unfold Before at *
  omega

theorem before_irrefl (loc : Location) : ¬ loc.Before loc := by
  unfold Before
  omega

theorem before_next (loc : Location) (c : Char) : loc.Before (loc.next c) := by
  unfold next Before
  split
  · exact .inl (Nat.lt_succ_self _)
  · exact .inr ⟨rfl, Nat.lt_succ_self _⟩

theorem before_after (loc : Location) {text : List Char} (h : text ≠ []) :
    loc.Before (loc.after text) := by
  induction text generalizing loc with
  | nil => exact absurd rfl h
  | cons c cs ih =>
    rw [after_cons]
    by_cases hcs : cs = []
    · subst hcs
      exact before_next loc c
    · exact (before_next loc c).trans (ih _ hcs)

end Location

/-! ## Filler -/

/-- Text between tokens, with the text that follows: a blank, a comment up to the end of its line,
or a comment up to the first `*/`. -/
inductive Filler : (text rest : List Char) → Prop where
  | blank {c : Char} (rest : List Char) (h : Lexer.isBlank c = true) : Filler [c] rest
  | line {body rest : List Char} (hbody : '\n' ∉ body) (hend : ∀ d ∈ rest.head?, d = '\n') :
    Filler ('/' :: '/' :: body) rest
  | block {body : List Char} (rest : List Char) (hbody : ¬ ['*', '/'] <:+: body ++ ['*']) :
    Filler ('/' :: '*' :: (body ++ ['*', '/'])) rest

/-- Any number of fillers. -/
inductive Gap : (gap rest : List Char) → Prop where
  | nil (rest : List Char) : Gap [] rest
  | cons {text gap rest : List Char} (h : Filler text (gap ++ rest)) (hgap : Gap gap rest) :
    Gap (text ++ gap) rest

/-! ## Faults -/

/-- The text does not go on with a character of words. -/
def EndsWord (rest : List Char) : Prop := ∀ d ∈ rest.head?, Lexer.isWordPart d = false

/-- What is wrong at the beginning of a text. -/
inductive Offence : List Char → SyntaxFault → Prop where
  | comment {body : List Char} (h : ¬ ['*', '/'] <:+: body) :
    Offence ('/' :: '*' :: body) .unterminatedComment
  | text {quote : Char} {body : List Char} (hquote : quote = '\"' ∨ quote = '\'')
    (h : ∀ value text rest, Quoted quote value text → body ≠ text ++ rest) :
    Offence (quote :: body) .unterminatedText
  | badNumber {digits : List Char} {c : Char} (rest : List Char) (hdigits : IsNumeral digits)
    (hc : Lexer.isWordStart c = true) :
    Offence (digits ++ c :: rest) (.invalidNumber (String.ofList digits))
  | bigNumber {digits rest : List Char} (hdigits : IsNumeral digits)
    (hrest : EndsWord rest) (hbig : Int64.maxValue.toInt < Text.natOfDigits digits) :
    Offence (digits ++ rest) (.numberOutOfRange (String.ofList digits))
  | bigTerm {c : Char} {axis : Axis} {digits rest : List Char}
    (haxis : Axis.ofLetter? c = some axis) (hdigits : IsNumeral digits)
    (hrest : EndsWord rest ∨ ∃ more, rest = '_' :: more ∧ EndsWord more)
    (hbig : Int32.maxValue.toInt < Text.natOfDigits digits) :
    Offence (c :: (digits ++ rest)) (.magnitudeOutOfRange (String.ofList digits))
  | bigSigned {c sign : Char} {axis : Axis} {digits rest : List Char}
    (haxis : Axis.ofLetter? c = some axis) (hsign : sign = '-' ∨ sign = '+')
    (hdigits : IsNumeral digits) (hrest : ∀ d ∈ rest.head?, Text.isDigit d = false)
    (hbig : Int32.maxValue.toInt < Text.natOfDigits digits) :
    Offence (c :: sign :: (digits ++ rest)) (.magnitudeOutOfRange (String.ofList digits))
  | character {c : Char} {rest : List Char} (hblank : Lexer.isBlank c = false)
    (hquote : c ≠ '\"' ∧ c ≠ '\'') (hdigit : Text.isDigit c = false)
    (hword : Lexer.isWordStart c = false)
    (hsymbol : ∀ s : Symbol, ¬ s.spelling.toList <+: c :: rest) :
    Offence (c :: rest) (.unexpectedCharacter c)

namespace Lexer

theorem blockComment?_sound {cs text rest : List Char} (h : blockComment? cs = some (text, rest)) :
    ∃ body, text = body ++ ['*', '/'] ∧ ¬ ['*', '/'] <:+: body ++ ['*'] := by
  fun_induction blockComment? cs generalizing text rest with
  | case1 => cases h
  | case2 =>
    cases h
    exact ⟨[], rfl, fun hinfix => absurd hinfix.length_le (by decide)⟩
  | case3 c cs hnot ih =>
    obtain ⟨⟨t, r⟩, hc, ht⟩ := Option.map_eq_some_iff.1 h
    cases ht
    obtain ⟨body, rfl, hbody⟩ := ih hc
    refine ⟨c :: body, rfl, ?_⟩
    rw [List.cons_append, List.infix_cons_iff]
    rintro (hfront | hinside)
    · -- The closing would have been found here.
      obtain ⟨rfl, hslash⟩ := List.cons_prefix_cons.1 hfront
      have hsplit := blockComment?_split hc
      cases body with
      | nil =>
        obtain ⟨hcontra, -⟩ := List.cons_prefix_cons.1 hslash
        cases hcontra
      | cons d ds =>
        obtain ⟨rfl, -⟩ := List.cons_prefix_cons.1 hslash
        exact hnot _ rfl hsplit.symm
    · exact hbody hinside

theorem blockComment?_none {cs : List Char} (h : blockComment? cs = none) :
    ¬ ['*', '/'] <:+: cs := by
  fun_induction blockComment? cs with
  | case1 => exact fun hinfix => absurd hinfix.length_le (by decide)
  | case2 => cases h
  | case3 c cs hnot ih =>
    rw [List.infix_cons_iff]
    rintro (⟨more, hfront⟩ | hinside)
    · cases hfront
      exact hnot more rfl rfl
    · exact ih (Option.map_eq_none_iff.1 h) hinside

theorem head?_dropWhile (p : Char → Bool) (cs : List Char) :
    ∀ d ∈ (cs.dropWhile p).head?, p d = false := by
  intro d hd
  have hnot := List.head?_dropWhile_not p cs
  rwa [hd] at hnot

/-- What is cut off without a token is filler. -/
theorem lexeme_filler {c : Char} {cs text rest : List Char}
    (h : lexeme c cs = .ok ⟨none, text, rest⟩) : Filler text rest := by
  cases FirstChar.of c cs with
  | blank hc heq =>
    rw [heq] at h
    cases h
    exact .blank _ hc
  | @line cs heq =>
    have hline : lineComment ('/' :: '/' :: cs) =
        ⟨none, '/' :: '/' :: cs.takeWhile (· ≠ '\n'), cs.dropWhile (· ≠ '\n')⟩ := rfl
    rw [heq, hline] at h
    cases h
    refine .line (fun hmem => ?_) fun d hd => ?_
    · have hnot := List.mem_takeWhile_imp hmem
      exact absurd rfl (of_decide_eq_true hnot)
    · simpa using head?_dropWhile _ _ d hd
  | block body heq =>
    rw [heq] at h
    split at h
    · next hcomment =>
      cases h
      obtain ⟨inside, rfl, hinside⟩ := blockComment?_sound hcomment
      exact .block _ hinside
    · cases h
  | quote hc heq =>
    rw [heq] at h
    split at h <;> cases h
  | digit hc heq =>
    rw [heq] at h
    obtain ⟨_, ⟨⟩, -⟩ := number_sound hc h
  | word hc heq =>
    rw [heq] at h
    obtain ⟨_, ⟨⟩, -⟩ := word_sound hc h
  | other hblank hquote hdigit hword heq =>
    rw [heq] at h
    split at h <;> cases h

/-! ## Where reading stops -/

theorem endsWord_of {rest : List Char} (hdigit : ∀ d ∈ rest.head?, Text.isDigit d = false)
    (hword : ∀ d ∈ rest.head?, isWordStart d = false) : EndsWord rest := by
  intro d hd
  have hd₁ : d.isDigit = false := hdigit d hd
  have hd₂ := hword d hd
  simp only [isWordStart, Bool.or_eq_false_iff] at hd₂
  simp [isWordPart, Char.isAlphanum, hd₁, hd₂.1, of_decide_eq_false hd₂.2]

theorem number_offence {c : Char} {cs : List Char} (hc : Text.isDigit c = true)
    {fault : SyntaxFault} (h : number (c :: cs) = .error fault) : Offence (c :: cs) fault := by
  have hsplit := List.takeWhile_append_dropWhile (p := Text.isDigit) (l := c :: cs)
  have hstop := head?_dropWhile Text.isDigit (c :: cs)
  have hdigits : IsNumeral ((c :: cs).takeWhile Text.isDigit) := by
    refine ⟨?_, fun d hd => List.mem_takeWhile_imp hd⟩
    rw [List.takeWhile_cons_of_pos hc]
    exact List.cons_ne_nil _ _
  unfold number at h
  dsimp only at h
  generalize (c :: cs).takeWhile Text.isDigit = digits, (c :: cs).dropWhile Text.isDigit = rest at *
  rw [← hsplit]
  split at h
  · next hword =>
    cases h
    cases rest with
    | nil => cases hword
    | cons d ds => exact .badNumber ds hdigits hword
  · next hword =>
    split at h
    · next hfit =>
      cases h
      refine .bigNumber hdigits (endsWord_of hstop fun d hd => ?_) ?_
      · rw [hd] at hword
        exact Bool.eq_false_iff.2 hword
      · have hmin : Int64.minValue.toInt ≤ 0 := by decide
        unfold fit64 at hfit
        split at hfit
        · cases hfit
        · omega
    · cases h

theorem magnitude_error {negative : Bool} {digits : List Char} {fault : SyntaxFault}
    (h : magnitude negative digits = .error fault) :
    fault = .magnitudeOutOfRange (String.ofList digits) ∧
      Int32.maxValue.toInt < Text.natOfDigits digits := by
  unfold magnitude at h
  dsimp only at h
  split at h
  · next hbig =>
    cases h
    exact ⟨rfl, hbig⟩
  · cases h

theorem signedDigits?_rest {cs : List Char} {sign : Char} {digits rest : List Char}
    (h : signedDigits? cs = some (sign, digits, rest)) :
    ∀ d ∈ rest.head?, Text.isDigit d = false := by
  unfold signedDigits? at h
  split at h
  · split at h
    · cases h
      exact head?_dropWhile _ _
    · cases h
  · cases h

theorem axisWord_offence {c : Char} {axis : Axis} (haxis : Axis.ofLetter? c = some axis)
    {digits : List Char} (hdigits : ∀ d ∈ digits, Text.isDigit d = true) {rest : List Char}
    (hrest : EndsWord rest ∨ ∃ more, rest = '_' :: more ∧ EndsWord more) {fault : SyntaxFault}
    (h : axisWord axis digits (c :: digits) rest = .error fault) :
    Offence (c :: (digits ++ rest)) fault := by
  cases digits with
  | nil =>
    cases hsigned : signedDigits? rest with
    | none =>
      simp only [axisWord, hsigned] at h
      cases h
    | some found =>
      obtain ⟨sign, signed, more⟩ := found
      obtain ⟨hsign, hnumeral⟩ := signedDigits?_eq_some hsigned
      simp only [axisWord, hsigned] at h
      cases hvalue : magnitude (sign = '-') signed with
      | ok value =>
        rw [hvalue] at h
        cases h
      | error fault' =>
        rw [hvalue] at h
        cases h
        obtain ⟨rfl, hbig⟩ := magnitude_error hvalue
        rw [List.nil_append, ← signedDigits?_split hsigned]
        exact .bigSigned haxis hsign hnumeral (signedDigits?_rest hsigned) hbig
  | cons d ds =>
    simp only [axisWord] at h
    cases hvalue : magnitude false (d :: ds) with
    | ok value =>
      rw [hvalue] at h
      cases h
    | error fault' =>
      rw [hvalue] at h
      cases h
      obtain ⟨rfl, hbig⟩ := magnitude_error hvalue
      exact .bigTerm haxis ⟨List.cons_ne_nil _ _, hdigits⟩ hrest hbig

/-- What follows the part of a word that is read first. -/
theorem word_rest (input : List Char) :
    ∃ rest, input = stem (input.takeWhile isWordPart) ++ rest ∧
      (EndsWord rest ∨ ∃ more, rest = '_' :: more ∧ EndsWord more) := by
  have hsplit := List.takeWhile_append_dropWhile (p := isWordPart) (l := input)
  rcases stem_cases (input.takeWhile isWordPart) with ⟨hsame, -⟩ | ⟨-, hwhole⟩
  · exact ⟨_, by rw [hsame, hsplit], .inl (head?_dropWhile _ _)⟩
  · refine ⟨'_' :: input.dropWhile isWordPart, ?_, .inr ⟨_, rfl, head?_dropWhile _ _⟩⟩
    rw [List.append_cons, ← hwhole, hsplit]

/-- A word is at fault only for the magnitude of a selector term. -/
theorem word_offence {c : Char} {cs : List Char} {fault : SyntaxFault}
    (h : word (c :: cs) = .error fault) : Offence (c :: cs) fault := by
  obtain ⟨rest, hinput, hrest⟩ := word_rest (c :: cs)
  have hdrop : ∀ text, c :: cs = text ++ rest → (c :: cs).drop text.length = rest := by
    intro text htext
    rw [htext, List.drop_left]
  unfold word at h
  dsimp only at h
  rw [hdrop _ hinput] at h
  generalize stem ((c :: cs).takeWhile isWordPart) = text at h hinput
  rw [hinput]
  split at h
  · cases h
  · split at h
    · cases h
    · split at h
      · next axis digits hword =>
        obtain ⟨letter, rfl, haxis, hdigits⟩ := ofWord?_eq_some hword
        exact axisWord_offence haxis hdigits hrest h
      · cases h

theorem symbol?_comparison {c : Char} (hc : c = '=' ∨ c = '!' ∨ c = '<' ∨ c = '>')
    (more : List Char) : symbol? (c :: more) ≠ none := by
  cases more with
  | nil => rcases hc with rfl | rfl | rfl | rfl <;> exact Option.some_ne_none _
  | cons d ds =>
    by_cases hd : d = '='
    · subst hd
      rcases hc with rfl | rfl | rfl | rfl <;> exact Option.some_ne_none _
    · rcases hc with rfl | rfl | rfl | rfl <;> simp [symbol?, hd]

theorem symbol?_none {input : List Char} (h : symbol? input = none) (s : Symbol)
    (hs : s ≠ .underscore) : ¬ s.spelling.toList <+: input := by
  rintro ⟨more, rfl⟩
  cases s with
  | underscore => exact hs rfl
  | assign => exact symbol?_comparison (.inl rfl) more h
  | bang => exact symbol?_comparison (.inr (.inl rfl)) more h
  | less => exact symbol?_comparison (.inr (.inr (.inl rfl))) more h
  | greater => exact symbol?_comparison (.inr (.inr (.inr rfl))) more h
  | _ => cases h

/-- Where reading stops, a construct is at fault. -/
theorem lexeme_offence {c : Char} {cs : List Char} {fault : SyntaxFault}
    (h : lexeme c cs = .error fault) : Offence (c :: cs) fault := by
  cases FirstChar.of c cs with
  | blank hc heq =>
    rw [heq] at h
    cases h
  | line heq =>
    rw [heq] at h
    cases h
  | block body heq =>
    rw [heq] at h
    split at h
    · cases h
    · next hcomment =>
      cases h
      exact .comment (blockComment?_none hcomment)
  | quote hc heq =>
    rw [heq] at h
    split at h
    · cases h
    · next hquoted =>
      cases h
      refine .text hc ?_
      rintro value text rest hvalue rfl
      have hescape : c ≠ '\\' := by rcases hc with rfl | rfl <;> decide
      rw [quotedText?_complete hescape hvalue] at hquoted
      cases hquoted
  | digit hc heq =>
    rw [heq] at h
    exact number_offence hc h
  | word hc heq =>
    rw [heq] at h
    exact word_offence h
  | other hblank hquote hdigit hword heq =>
    rw [heq] at h
    split at h
    · cases h
    · next hsymbol =>
      cases h
      refine .character hblank (not_or.1 hquote) hdigit hword fun s => ?_
      by_cases hs : s = .underscore
      · subst hs
        rintro ⟨more, hmore⟩
        cases hmore
        cases hword
      · exact symbol?_none hsymbol s hs

end Lexer

/-! ## Pieces of a text -/

/-- A token with its text and with the gap before it. -/
structure Piece where
  gap : List Char
  text : List Char
  token : Located

namespace Piece

/-- The text that pieces make up. -/
def written (pieces : List Piece) : List Char := pieces.flatMap fun piece => piece.gap ++ piece.text

theorem written_cons (piece : Piece) (pieces : List Piece) :
    written (piece :: pieces) = piece.gap ++ piece.text ++ written pieces := rfl

end Piece

open Piece (written)

/-- Pieces between the text before them and the rest. Before each token is a gap; the text of the
token spells it, and the place of the token is counted in all that stands before. -/
inductive Laid : (before : List Char) → List Piece → (rest : List Char) → Prop where
  | nil (before rest : List Char) : Laid before [] rest
  | cons {before rest : List Char} {piece : Piece} {pieces : List Piece}
    (hgap : Gap piece.gap (piece.text ++ (written pieces ++ rest)))
    (htext : Spelling piece.token.token piece.text)
    (hloc : piece.token.loc = .behind (before ++ piece.gap))
    (hrest : Laid (before ++ piece.gap ++ piece.text) pieces rest) :
    Laid before (piece :: pieces) rest

/-- How far reading has come: pieces, then a gap, and the rest. -/
structure Course (before input : List Char) (pieces : List Piece) (gap rest : List Char) :
    Prop where
  split : input = written pieces ++ (gap ++ rest)
  filled : Gap gap rest
  laid : Laid before pieces (gap ++ rest)

namespace Course

variable {before input gap rest text : List Char} {pieces : List Piece}

/-- A filler goes to the gap of the first piece, or to the last gap. -/
theorem filler (h : Course (before ++ text) input pieces gap rest) (hfiller : Filler text input) :
    ∃ pieces' gap', Course before (text ++ input) pieces' gap' rest ∧
      pieces'.map Piece.token = pieces.map Piece.token ∧
      written pieces' ++ gap' = text ++ (written pieces ++ gap) := by
  obtain ⟨rfl, hgap, hlaid⟩ := h
  cases hlaid with
  | nil =>
    refine ⟨[], text ++ gap, ⟨?_, .cons hfiller hgap, .nil _ _⟩, rfl, rfl⟩
    simp [written]
  | @cons _ _ piece pieces hfirst htext hloc hrest =>
    let piece' : Piece := { piece with gap := text ++ piece.gap }
    refine ⟨piece' :: pieces, gap, ⟨?_, hgap, ?_⟩, rfl, ?_⟩
    · simp [Piece.written_cons, piece']
    · refine .cons ?_ htext ?_ ?_
      · refine .cons ?_ hfirst
        simpa [Piece.written_cons] using hfiller
      · rw [hloc, List.append_assoc]
      · simpa [piece'] using hrest
    · simp [Piece.written_cons, piece']

/-- A token begins a new piece, without a gap. -/
theorem token (h : Course (before ++ text) input pieces gap rest) {t : Token}
    (htext : Spelling t text) :
    Course before (text ++ input) (⟨[], text, ⟨t, .behind before⟩⟩ :: pieces) gap rest where
  split := by
    rw [h.split, Piece.written_cons]
    simp
  filled := h.filled
  laid := .cons (.nil _) htext (by simp) (by simpa using h.laid)

end Course

/-! ## Whole texts -/

namespace Lexer

/-- One lexeme before a text whose course is known. -/
theorem lexeme_course {c : Char} {cs before gap rest : List Char} {l : Lexeme}
    {pieces : List Piece} (hlexeme : lexeme c cs = .ok l)
    (h : Course (before ++ l.text) l.rest pieces gap rest) :
    ∃ pieces' gap', Course before (c :: cs) pieces' gap' rest ∧
      pieces'.map Piece.token =
        (l.token.map (Located.mk · (.behind before))).toList ++ pieces.map Piece.token ∧
      written pieces' ++ gap' = l.text ++ (written pieces ++ gap) := by
  obtain ⟨hsplit, -⟩ := lexeme_splits hlexeme
  rw [← hsplit]
  obtain ⟨token, text, after⟩ := l
  cases token with
  | none =>
    obtain ⟨pieces', gap', hcourse, htokens, hwritten⟩ := h.filler (lexeme_filler hlexeme)
    exact ⟨pieces', gap', hcourse, htokens, hwritten⟩
  | some t =>
    refine ⟨_, gap, h.token (lexeme_sound hlexeme), rfl, ?_⟩
    rw [Piece.written_cons]
    simp

/-- What reading a text gives, in terms of its pieces. The induction is over the lexemes; the text
before the input is what places are counted in. -/
theorem scan_course (loc : Location) (input before : List Char) (hloc : loc = .behind before) :
    (∀ list, scan loc input = .ok list → ∃ pieces gap, Course before input pieces gap [] ∧
      pieces.map Piece.token = list.tokens ∧ list.stop = .behind (before ++ input)) ∧
    ∀ error, scan loc input = .error error → ∃ pieces gap rest,
      Course before input pieces gap rest ∧ Offence rest error.fault ∧
        error.loc = .behind (before ++ (written pieces ++ gap)) := by
  fun_induction scan loc input generalizing before with
  | case1 loc =>
    refine ⟨?_, fun _ h => by cases h⟩
    rintro list ⟨⟩
    exact ⟨[], [], ⟨rfl, .nil _, .nil _ _⟩, rfl, by rw [hloc, List.append_nil]⟩
  | case2 loc c cs fault hlexeme =>
    refine ⟨fun _ h => (by cases h), ?_⟩
    rintro error ⟨⟩
    refine ⟨[], [], c :: cs, ⟨rfl, .nil _, .nil _ _⟩, lexeme_offence hlexeme, ?_⟩
    rw [hloc]
    simp [written]
  | case3 loc c cs l hlexeme error herror ih =>
    subst hloc
    obtain ⟨-, hfailed⟩ := ih (before ++ l.text) (Location.behind_append _ _).symm
    refine ⟨fun _ h => (by cases h), ?_⟩
    rintro error' ⟨⟩
    obtain ⟨pieces, gap, rest, hcourse, hoffence, hplace⟩ := hfailed error herror
    obtain ⟨pieces', gap', hcourse', -, hwritten⟩ := lexeme_course hlexeme hcourse
    refine ⟨pieces', gap', rest, hcourse', hoffence, ?_⟩
    rw [hplace, hwritten, List.append_assoc]
  | case4 loc c cs l hlexeme list hlist htoken ih =>
    subst hloc
    obtain ⟨hread, -⟩ := ih (before ++ l.text) (Location.behind_append _ _).symm
    obtain ⟨pieces, gap, hcourse, htokens, hstop⟩ := hread list hlist
    obtain ⟨pieces', gap', hcourse', htokens', -⟩ := lexeme_course hlexeme hcourse
    refine ⟨?_, fun _ h => by cases h⟩
    rintro list' ⟨⟩
    refine ⟨pieces', gap', hcourse', ?_, ?_⟩
    · rw [htokens', htoken, htokens]
      rfl
    · rw [hstop, List.append_assoc, (lexeme_splits hlexeme).1]
  | case5 loc c cs l hlexeme list hlist token htoken ih =>
    subst hloc
    obtain ⟨hread, -⟩ := ih (before ++ l.text) (Location.behind_append _ _).symm
    obtain ⟨pieces, gap, hcourse, htokens, hstop⟩ := hread list hlist
    obtain ⟨pieces', gap', hcourse', htokens', -⟩ := lexeme_course hlexeme hcourse
    refine ⟨?_, fun _ h => by cases h⟩
    rintro list' ⟨⟩
    refine ⟨pieces', gap', hcourse', ?_, ?_⟩
    · rw [htokens', htoken, htokens]
      rfl
    · change list.stop = _
      rw [hstop, List.append_assoc, (lexeme_splits hlexeme).1]

/-- One lexeme that is a token, and the tokens of the rest. -/
theorem scan_token {c : Char} {cs text rest : List Char} {t : Token} {loc : Location}
    {list : TokenList} (hlexeme : lexeme c cs = .ok ⟨some t, text, rest⟩)
    (hrest : scan (loc.after text) rest = .ok list) :
    scan loc (c :: cs) = .ok { list with tokens := ⟨t, loc⟩ :: list.tokens } := by
  rw [scan]
  split
  · next hfault =>
    rw [hlexeme] at hfault
    cases hfault
  · next l hl =>
    rw [hlexeme] at hl
    cases hl
    rw [hrest]

end Lexer

/-- A spelling on its own is read as its token. -/
theorem Spelling.tokenize {t : Token} {text : List Char} (h : Spelling t text) :
    BlockScript.tokenize (String.ofList text) = .ok ⟨[⟨t, .start⟩], .behind text⟩ := by
  have hend : ∀ d ∈ ([] : List Char).head?, t.sticks d = false := nofun
  obtain ⟨c, cs, rfl, hlexeme⟩ := h.lexeme hend
  rw [List.append_nil] at hlexeme
  have hrest : Lexer.scan (Location.start.after (c :: cs)) [] = .ok ⟨[], .behind (c :: cs)⟩ := by
    rw [Lexer.scan, Location.after_start]
  rw [BlockScript.tokenize, String.toList_ofList]
  exact Lexer.scan_token hlexeme hrest

theorem Spelling.ne_nil {t : Token} {text : List Char} (h : Spelling t text) : text ≠ [] := by
  have hend : ∀ d ∈ ([] : List Char).head?, t.sticks d = false := nofun
  obtain ⟨c, cs, rfl, -⟩ := h.lexeme hend
  exact List.cons_ne_nil c cs

namespace Laid

variable {before rest : List Char} {pieces : List Piece}

theorem spelled (h : Laid before pieces rest) :
    ∀ piece ∈ pieces, Spelling piece.token.token piece.text := by
  induction h with
  | nil => nofun
  | cons _ htext _ _ ih => exact List.forall_mem_cons.2 ⟨htext, ih⟩

theorem placed (h : Laid before pieces rest) :
    ∀ piece ∈ pieces, ∃ more, piece.token.loc = .behind (before ++ more) := by
  induction h with
  | nil => nofun
  | cons _ _ hloc _ ih =>
    refine List.forall_mem_cons.2 ⟨⟨_, hloc⟩, fun other hother => ?_⟩
    obtain ⟨more, hmore⟩ := ih other hother
    exact ⟨_, hmore.trans (by rw [List.append_assoc, List.append_assoc])⟩

/-- The places of tokens are in the order of the text. -/
theorem ordered (h : Laid before pieces rest) :
    (pieces.map Piece.token).Pairwise fun a b => a.loc.Before b.loc := by
  induction h with
  | nil => exact .nil
  | @cons before rest piece pieces _ htext hloc hrest ih =>
    refine List.pairwise_cons.2 ⟨fun other hother => ?_, ih⟩
    obtain ⟨later, hlater, rfl⟩ := List.mem_map.1 hother
    obtain ⟨more, hmore⟩ := hrest.placed later hlater
    have hafter := Location.behind_append (before ++ piece.gap) (piece.text ++ more)
    rw [hloc, hmore, List.append_assoc (before ++ piece.gap), hafter]
    exact Location.before_after _ (List.append_ne_nil_of_left_ne_nil htext.ne_nil _)

end Laid

/-- Every token that is read has a spelling. -/
theorem spelling_of_tokenize {source : String} {list : TokenList}
    (h : tokenize source = .ok list) : ∀ t ∈ list.tokens, ∃ text, Spelling t.token text := by
  obtain ⟨hread, -⟩ := Lexer.scan_course .start source.toList [] rfl
  obtain ⟨pieces, gap, hcourse, htokens, -⟩ := hread list h
  intro t ht
  rw [← htokens] at ht
  obtain ⟨piece, hpiece, rfl⟩ := List.mem_map.1 ht
  exact ⟨piece.text, hcourse.laid.spelled piece hpiece⟩

/-- The text is read as these tokens and nothing else. -/
def ReadsAs (text : String) (tokens : List Token) : Prop :=
  ∃ list, tokenize text = .ok list ∧ list.tokens.map Located.token = tokens

/-- A text is read as a token that has no other spelling exactly if it spells the token. -/
theorem readsAs_iff_spelling {text : String} {t : Token}
    (honly : ∀ other, Spelling t other → other = text.toList) :
    ReadsAs text [t] ↔ Spelling t text.toList := by
  constructor
  · rintro ⟨list, hlist, htokens⟩
    obtain ⟨located, hlocated, rfl⟩ : ∃ located ∈ list.tokens, located.token = t := by
      rw [← List.mem_map, htokens]
      exact List.mem_singleton_self t
    obtain ⟨other, hother⟩ := spelling_of_tokenize hlist located hlocated
    rwa [honly other hother] at hother
  · intro h
    have hread := h.tokenize
    rw [String.ofList_toList] at hread
    exact ⟨_, hread, rfl⟩

theorem readsAs_name (name : String) :
    ReadsAs name [.name name] ↔ Spelling (.name name) name.toList :=
  readsAs_iff_spelling fun _ h => h.name_text

theorem readsAs_axis (axis : Axis) (magnitude : Option Int32) (text : String) :
    ReadsAs text [.axis axis magnitude text] ↔ Spelling (.axis axis magnitude text) text.toList :=
  readsAs_iff_spelling fun _ h => h.axis_text

/-- Reading loses nothing. A text that is read is made of pieces and a last gap. The pieces are
those of the tokens, in order: each is a gap and a text that is not empty and that, on its own, is
read as just this token. The gaps are blanks and whole comments. The place of a token is counted in
the text before it, so the places are in order, and the end is counted in the whole text. When
reading fails, there are such pieces and a gap up to the construct at fault, and the error is placed
where that construct begins. -/
theorem tokenize_lossless (source : String) :
    match tokenize source with
    | .ok list => ∃ pieces gap,
      source.toList = written pieces ++ gap ∧ Gap gap [] ∧ Laid [] pieces gap ∧
      pieces.map Piece.token = list.tokens ∧
      (∀ piece ∈ pieces, piece.text ≠ [] ∧
        tokenize (String.ofList piece.text) =
          .ok ⟨[⟨piece.token.token, .start⟩], .behind piece.text⟩) ∧
      (list.tokens.Pairwise fun a b => a.loc.Before b.loc) ∧
      list.stop = .behind source.toList
    | .error error => ∃ pieces gap rest,
      source.toList = written pieces ++ (gap ++ rest) ∧ Gap gap rest ∧
      Laid [] pieces (gap ++ rest) ∧ Offence rest error.fault ∧
      error.loc = .behind (written pieces ++ gap) := by
  have hstart : Location.start = .behind [] := rfl
  obtain ⟨hread, hfailed⟩ := Lexer.scan_course .start source.toList [] hstart
  cases hscan : tokenize source with
  | ok list =>
    obtain ⟨pieces, gap, ⟨hsplit, hgap, hlaid⟩, htokens, hstop⟩ := hread list hscan
    rw [List.append_nil] at hsplit hlaid
    refine ⟨pieces, gap, hsplit, hgap, hlaid, htokens, fun piece hpiece => ?_, ?_, hstop⟩
    · have htext := hlaid.spelled piece hpiece
      exact ⟨htext.ne_nil, htext.tokenize⟩
    · rw [← htokens]
      exact hlaid.ordered
  | error error =>
    obtain ⟨pieces, gap, rest, ⟨hsplit, hgap, hlaid⟩, hoffence, hplace⟩ := hfailed error hscan
    exact ⟨pieces, gap, rest, hsplit, hgap, hlaid, hoffence, hplace⟩

end BlockScript
