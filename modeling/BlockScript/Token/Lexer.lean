import BlockScript.Token.SyntaxError

/-!
# Reading tokens

`lexeme` cuts the first lexeme off a text that is not empty: a token, a blank or a comment. The text
it cuts and the rest make up the whole input, so `tokenize` can place every token by the text before
it. A sign and digits directly after a bare axis letter belong to the term, and an underscore at the
end of an axis word does not: it is read on its own, as the shorthand for one block down.
-/
namespace BlockScript
set_option autoImplicit false

/-- The front of a text: its token, none for blanks and comments, and the rest. -/
structure Lexeme where
  token : Option Token
  text : List Char
  rest : List Char

namespace Lexer

def isBlank (c : Char) : Bool := c = ' ' || c = '\t' || c = '\r' || c = '\n'

def isWordStart (c : Char) : Bool := c.isAlpha || c = '_'

def isWordPart (c : Char) : Bool := c.isAlphanum || c = '_'

/-- Cuts a comment after its opening; nothing if the closing is missing. -/
def blockComment? : List Char → Option (List Char × List Char)
  | [] => none
  | '*' :: '/' :: rest => some (['*', '/'], rest)
  | c :: cs => (blockComment? cs).map fun (text, rest) => (c :: text, rest)

/-- What `\` followed by `c` stands for; an unknown escape stands for itself. -/
def escape (c : Char) : List Char :=
  if c = 'n' then ['\n']
  else if c = 't' then ['\t']
  else if c = '\\' ∨ c = '\"' ∨ c = '\'' then [c]
  else ['\\', c]

/-- The value, the spelling and the rest of a text after its opening quote. -/
def quotedText? (quote : Char) : List Char → Option (List Char × List Char × List Char)
  | [] => none
  | ['\\'] => none
  | '\\' :: c :: cs =>
    (quotedText? quote cs).map fun (value, text, rest) => (escape c ++ value, '\\' :: c :: text, rest)
  | c :: cs =>
    if c = quote then some ([], [c], cs)
    else (quotedText? quote cs).map fun (value, text, rest) => (c :: value, c :: text, rest)

def number (input : List Char) : Except SyntaxFault Lexeme :=
  let digits := input.takeWhile Text.isDigit
  let rest := input.dropWhile Text.isDigit
  if rest.head?.any isWordStart then
    .error (.invalidNumber (String.ofList digits))
  else
    match fit64 (Text.natOfDigits digits) with
    | none => .error (.numberOutOfRange (String.ofList digits))
    | some value => .ok ⟨some (.int value), digits, rest⟩

/-- A signed magnitude directly after an axis letter. -/
def signedDigits? : List Char → Option (Char × List Char × List Char)
  | sign :: cs =>
    if (sign = '-' ∨ sign = '+') ∧ cs.head?.any Text.isDigit then
      some (sign, cs.takeWhile Text.isDigit, cs.dropWhile Text.isDigit)
    else none
  | [] => none

def magnitude (negative : Bool) (digits : List Char) : Except SyntaxFault Int32 :=
  let value : Int := Text.natOfDigits digits
  if Int32.maxValue.toInt < value then .error (.magnitudeOutOfRange (String.ofList digits))
  else .ok (Int32.ofInt (if negative then -value else value))

/-- An axis word that has been cut off, with the rest of the text. -/
def axisWord (axis : Axis) (digits word rest : List Char) : Except SyntaxFault Lexeme :=
  match digits, signedDigits? rest with
  | [], none => .ok ⟨some (.axis axis none (String.ofList word)), word, rest⟩
  | [], some (sign, signed, rest) => do
    let text := word ++ sign :: signed
    let value ← magnitude (sign = '-') signed
    return ⟨some (.axis axis (some value) (String.ofList text)), text, rest⟩
  | digits, _ => do
    let value ← magnitude false digits
    return ⟨some (.axis axis (some value) (String.ofList word)), word, rest⟩

/-- The part of a word that is read first: an axis word leaves a final underscore behind. -/
def stem (word : List Char) : List Char :=
  if word.getLast? = some '_' ∧ Axis.isWord word.dropLast then word.dropLast else word

def word (input : List Char) : Except SyntaxFault Lexeme :=
  let whole := input.takeWhile isWordPart
  let text := stem whole
  let rest := input.drop text.length
  if text = ['_'] then .ok ⟨some (.symbol .underscore), text, rest⟩
  else
    match Keyword.ofWord? (String.ofList text) with
    | some keyword => .ok ⟨some (.keyword keyword), text, rest⟩
    | none =>
      match Axis.ofWord? text with
      | some (axis, digits) => axisWord axis digits text rest
      | none => .ok ⟨some (.name (String.ofList text)), text, rest⟩

/-- Symbols of two characters win over symbols of one. -/
def symbol? : List Char → Option (Symbol × List Char × List Char)
  | '=' :: '=' :: rest => some (.equal, ['=', '='], rest)
  | '!' :: '=' :: rest => some (.notEqual, ['!', '='], rest)
  | '<' :: '=' :: rest => some (.lessEqual, ['<', '='], rest)
  | '>' :: '=' :: rest => some (.greaterEqual, ['>', '='], rest)
  | '&' :: '&' :: rest => some (.both, ['&', '&'], rest)
  | '|' :: '|' :: rest => some (.either, ['|', '|'], rest)
  | '(' :: rest => some (.leftParen, ['('], rest)
  | ')' :: rest => some (.rightParen, [')'], rest)
  | '{' :: rest => some (.leftBrace, ['{'], rest)
  | '}' :: rest => some (.rightBrace, ['}'], rest)
  | ',' :: rest => some (.comma, [','], rest)
  | ':' :: rest => some (.colon, [':'], rest)
  | ';' :: rest => some (.semicolon, [';'], rest)
  | '=' :: rest => some (.assign, ['='], rest)
  | '!' :: rest => some (.bang, ['!'], rest)
  | '<' :: rest => some (.less, ['<'], rest)
  | '>' :: rest => some (.greater, ['>'], rest)
  | '+' :: rest => some (.plus, ['+'], rest)
  | '-' :: rest => some (.minus, ['-'], rest)
  | '*' :: rest => some (.star, ['*'], rest)
  | '/' :: rest => some (.slash, ['/'], rest)
  | '^' :: rest => some (.caret, ['^'], rest)
  | _ => none

def lineComment (input : List Char) : Lexeme :=
  ⟨none, input.takeWhile (· ≠ '\n'), input.dropWhile (· ≠ '\n')⟩

/-- The first lexeme of the text `c :: cs`. -/
def lexeme (c : Char) (cs : List Char) : Except SyntaxFault Lexeme :=
  if isBlank c then .ok ⟨none, [c], cs⟩
  else if c = '/' ∧ cs.head? = some '/' then .ok (lineComment (c :: cs))
  else if c = '/' ∧ cs.head? = some '*' then
    match blockComment? cs.tail with
    | some (text, rest) => .ok ⟨none, '/' :: '*' :: text, rest⟩
    | none => .error .unterminatedComment
  else if c = '\"' ∨ c = '\'' then
    match quotedText? c cs with
    | some (value, text, rest) => .ok ⟨some (.text (String.ofList value)), c :: text, rest⟩
    | none => .error .unterminatedText
  else if Text.isDigit c then number (c :: cs)
  else if isWordStart c then word (c :: cs)
  else
    match symbol? (c :: cs) with
    | some (symbol, text, rest) => .ok ⟨some (.symbol symbol), text, rest⟩
    | none => .error (.unexpectedCharacter c)

theorem blockComment?_split {cs text rest : List Char} (h : blockComment? cs = some (text, rest)) :
    text ++ rest = cs := by
  fun_induction blockComment? cs generalizing text rest with
  | case1 => cases h
  | case2 =>
    cases h
    rfl
  | case3 c cs _ ih =>
    obtain ⟨⟨t, r⟩, hc, ht⟩ := Option.map_eq_some_iff.1 h
    cases ht
    simp [ih hc]

theorem quotedText?_split {quote : Char} {cs value text rest : List Char}
    (h : quotedText? quote cs = some (value, text, rest)) : text ++ rest = cs := by
  fun_induction quotedText? quote cs generalizing value text rest with
  | case1 => cases h
  | case2 => cases h
  | case3 c cs ih =>
    obtain ⟨⟨v, t, r⟩, hc, ht⟩ := Option.map_eq_some_iff.1 h
    cases ht
    simp [ih hc]
  | case4 =>
    cases h
    rfl
  | case5 c cs _ _ _ ih =>
    obtain ⟨⟨v, t, r⟩, hc, ht⟩ := Option.map_eq_some_iff.1 h
    cases ht
    simp [ih hc]

/-- A lexeme is the front of its input and is not empty. -/
def Splits (input : List Char) (lexeme : Lexeme) : Prop :=
  lexeme.text ++ lexeme.rest = input ∧ lexeme.text ≠ []

theorem number_splits {c : Char} {cs : List Char} {l : Lexeme} (hc : Text.isDigit c = true)
    (h : number (c :: cs) = .ok l) : Splits (c :: cs) l := by
  unfold number at h
  simp only at h
  split at h
  · cases h
  · split at h
    · cases h
    · cases h
      refine ⟨List.takeWhile_append_dropWhile, ?_⟩
      simp [hc]

theorem signedDigits?_split {cs : List Char} {sign : Char} {digits rest : List Char}
    (h : signedDigits? cs = some (sign, digits, rest)) : sign :: digits ++ rest = cs := by
  unfold signedDigits? at h
  split at h
  · split at h
    · cases h
      simp [List.takeWhile_append_dropWhile]
    · cases h
  · cases h

theorem axisWord_splits {axis : Axis} {digits word rest : List Char} {l : Lexeme}
    (hw : word ≠ []) (h : axisWord axis digits word rest = .ok l) : Splits (word ++ rest) l := by
  unfold axisWord at h
  split at h
  · cases h
    exact ⟨rfl, hw⟩
  · next hs =>
    simp only [bind, Except.bind, pure, Except.pure] at h
    split at h
    · cases h
    · cases h
      have := signedDigits?_split hs
      refine ⟨?_, by simp⟩
      simp [← this]
  · simp only [bind, Except.bind, pure, Except.pure] at h
    split at h
    · cases h
    · cases h
      exact ⟨rfl, hw⟩

theorem stem_isFront (word : List Char) : stem word <+: word := by
  unfold stem
  split
  · exact List.dropLast_prefix word
  · exact List.prefix_refl word

theorem stem_ne_nil {word : List Char} (h : word ≠ []) : stem word ≠ [] := by
  unfold stem
  split
  · next hs =>
    intro hn
    rw [hn] at hs
    exact absurd hs.2 (by decide)
  · exact h

theorem word_splits {c : Char} {cs : List Char} {l : Lexeme} (hc : isWordPart c = true)
    (h : word (c :: cs) = .ok l) : Splits (c :: cs) l := by
  have hne : stem ((c :: cs).takeWhile isWordPart) ≠ [] :=
    stem_ne_nil (by simp [hc])
  have htaken : (c :: cs).takeWhile isWordPart <+: c :: cs := List.takeWhile_prefix _
  have hpre : stem ((c :: cs).takeWhile isWordPart) <+: c :: cs := (stem_isFront _).trans htaken
  have hsplit := List.prefix_iff_eq_append.1 hpre
  unfold word at h
  simp only at h
  split at h
  · cases h
    exact ⟨hsplit, hne⟩
  · split at h
    · cases h
      exact ⟨hsplit, hne⟩
    · split at h
      · have := axisWord_splits hne h
        rwa [hsplit] at this
      · cases h
        exact ⟨hsplit, hne⟩

theorem symbol?_split {input text rest : List Char} {symbol : Symbol}
    (h : symbol? input = some (symbol, text, rest)) : text ++ rest = input ∧ text ≠ [] := by
  unfold symbol? at h
  split at h <;> cases h <;> exact ⟨rfl, by simp⟩

theorem isWordPart_of_isWordStart {c : Char} (h : isWordStart c = true) : isWordPart c = true := by
  simp only [isWordStart, isWordPart, Char.isAlphanum, Bool.or_eq_true] at h ⊢
  exact h.elim (fun h => Or.inl (Or.inl h)) Or.inr

theorem lexeme_splits {c : Char} {cs : List Char} {l : Lexeme} (h : lexeme c cs = .ok l) :
    Splits (c :: cs) l := by
  unfold lexeme at h
  split at h
  · cases h
    exact ⟨rfl, by simp⟩
  · split at h
    · next hc =>
      cases h
      refine ⟨List.takeWhile_append_dropWhile, ?_⟩
      simp [lineComment, hc.1]
    · split at h
      · next hc =>
        split at h
        · next hb =>
          cases h
          refine ⟨?_, by simp⟩
          cases cs with
          | nil => simp at hc
          | cons d ds =>
            simp only [List.head?_cons, Option.some.injEq] at hc
            simp only [List.tail_cons] at hb
            simp [hc, blockComment?_split hb]
        · cases h
      · split at h
        · split at h
          · next hq =>
            cases h
            exact ⟨by simp [quotedText?_split hq], by simp⟩
          · cases h
        · split at h
          · next hd => exact number_splits hd h
          · split at h
            · next hw => exact word_splits (isWordPart_of_isWordStart hw) h
            · split at h
              · next hs =>
                cases h
                exact symbol?_split hs
              · cases h

theorem lexeme_rest_lt {c : Char} {cs : List Char} {l : Lexeme} (h : lexeme c cs = .ok l) :
    l.rest.length < (c :: cs).length := by
  obtain ⟨hs, hn⟩ := lexeme_splits h
  rw [← hs, List.length_append]
  have := List.length_pos_iff.2 hn
  omega

/-- The tokens of a text that starts at `loc`. -/
def scan (loc : Location) (input : List Char) : Except SyntaxError TokenList :=
  match input with
  | [] => .ok ⟨[], loc⟩
  | c :: cs =>
    match _h : lexeme c cs with
    | .error fault => .error ⟨loc, fault⟩
    | .ok l =>
      match scan (loc.after l.text) l.rest with
      | .error error => .error error
      | .ok list =>
        match l.token with
        | none => .ok list
        | some token => .ok { list with tokens := ⟨token, loc⟩ :: list.tokens }
termination_by input.length
decreasing_by exact lexeme_rest_lt _h

end Lexer

/-- The tokens of a script, or the first lexical error. -/
def tokenize (source : String) : Except SyntaxError TokenList :=
  Lexer.scan Location.start source.toList

end BlockScript
