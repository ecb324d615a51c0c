import BlockScript.Token.Lexer
import Mathlib.Data.List.TakeWhile

/-!
# How tokens are spelled

A relation says which texts spell which token. What the lexer cuts off as a token is a spelling of
it, and a spelling is cut off whole wherever the character behind it does not stick to the token.
-/
namespace BlockScript
set_option autoImplicit false

/-- What a text after its opening quote stands for, up to the closing quote. -/
inductive Quoted (quote : Char) : (value text : List Char) → Prop where
  | close : Quoted quote [] [quote]
  | escaped {value text : List Char} (c : Char) (h : Quoted quote value text) :
    Quoted quote (Lexer.escape c ++ value) ('\\' :: c :: text)
  | plain {value text : List Char} (c : Char) (hescape : c ≠ '\\') (hquote : c ≠ quote)
    (h : Quoted quote value text) : Quoted quote (c :: value) (c :: text)

/-- A number without a sign. -/
structure IsNumeral (digits : List Char) : Prop where
  ne_nil : digits ≠ []
  all : ∀ d ∈ digits, Text.isDigit d = true

/-- A word that is read as a name. -/
structure IsNameWord (c : Char) (cs : List Char) : Prop where
  start : Lexer.isWordStart c = true
  part : ∀ d ∈ cs, Lexer.isWordPart d = true
  not_underscore : c :: cs ≠ ['_']
  not_keyword : Keyword.ofWord? (String.ofList (c :: cs)) = none
  not_term : Axis.ofWord? (c :: cs) = none
  not_lowered : ∀ term, Axis.isWord term = true → c :: cs ≠ term ++ ['_']

/-- Which texts spell which token. -/
inductive Spelling : Token → List Char → Prop where
  | name {c : Char} {cs : List Char} (h : IsNameWord c cs) :
    Spelling (.name (String.ofList (c :: cs))) (c :: cs)
  | int {digits : List Char} {value : Int64} (hdigits : IsNumeral digits)
    (hvalue : value.toInt = Text.natOfDigits digits) : Spelling (.int value) digits
  | text {quote : Char} {value text : List Char} (hquote : quote = '\"' ∨ quote = '\'')
    (h : Quoted quote value text) : Spelling (.text (String.ofList value)) (quote :: text)
  | axis {c : Char} {axis : Axis} (haxis : Axis.ofLetter? c = some axis) :
    Spelling (.axis axis none (String.ofList [c])) [c]
  | term {c : Char} {axis : Axis} {digits : List Char} {magnitude : Int32}
    (haxis : Axis.ofLetter? c = some axis) (hdigits : IsNumeral digits)
    (hvalue : Lexer.magnitude false digits = .ok magnitude) :
    Spelling (.axis axis (some magnitude) (String.ofList (c :: digits))) (c :: digits)
  | signed {c sign : Char} {axis : Axis} {digits : List Char} {magnitude : Int32}
    (haxis : Axis.ofLetter? c = some axis) (hsign : sign = '-' ∨ sign = '+')
    (hdigits : IsNumeral digits)
    (hvalue : Lexer.magnitude (sign = '-') digits = .ok magnitude) :
    Spelling (.axis axis (some magnitude) (String.ofList (c :: sign :: digits)))
      (c :: sign :: digits)
  | keyword (k : Keyword) : Spelling (.keyword k) k.spelling.toList
  | symbol (s : Symbol) : Spelling (.symbol s) s.spelling.toList

theorem Spelling.name_inv {spelling : String} {text : List Char}
    (h : Spelling (.name spelling) text) :
    ∃ c cs, text = c :: cs ∧ spelling = String.ofList (c :: cs) ∧ IsNameWord c cs := by
  cases h with
  | name h => exact ⟨_, _, rfl, rfl, h⟩

theorem Spelling.name_text {spelling : String} {text : List Char}
    (h : Spelling (.name spelling) text) : text = spelling.toList := by
  obtain ⟨c, cs, rfl, rfl, -⟩ := h.name_inv
  exact String.toList_ofList.symm

theorem Spelling.axis_text {axis : Axis} {magnitude : Option Int32} {spelling : String}
    {text : List Char} (h : Spelling (.axis axis magnitude spelling) text) :
    text = spelling.toList := by
  cases h <;> exact String.toList_ofList.symm

/-- The lexeme is a token with a spelling of it. -/
def Lexeme.Spelled (l : Lexeme) : Prop := ∃ t, l.token = some t ∧ Spelling t l.text

/-- Whether a character directly behind the token may be taken for a part of it. -/
def Token.sticks : Token → Char → Bool
  | text _, _ => false
  | axis _ none _, d => Lexer.isWordPart d || d = '+' || d = '-'
  | symbol .underscore, d => Lexer.isWordPart d
  | symbol .slash, d => d = '/' || d = '*'
  | symbol s, d => (s = .assign || s = .bang || s = .less || s = .greater) && d = '='
  | _, d => Lexer.isWordPart d

namespace Lexer

/-! ## Characters of words -/

theorem isAlpha_iff {c : Char} :
    c.isAlpha = true ↔ 65 ≤ c.toNat ∧ c.toNat ≤ 90 ∨ 97 ≤ c.toNat ∧ c.toNat ≤ 122 := by
  change (decide (65 ≤ c.val ∧ c.val ≤ 90) ||
    (decide (97 ≤ c.val) && decide (c.val ≤ 122))) = true ↔ _
  simp only [Bool.or_eq_true, Bool.and_eq_true, decide_eq_true_eq, UInt32.le_iff_toNat_le]
  exact Iff.rfl

theorem isDigit_iff {c : Char} : Text.isDigit c = true ↔ 48 ≤ c.toNat ∧ c.toNat ≤ 57 := by
  unfold Text.isDigit
  simp only [Bool.and_eq_true, decide_eq_true_eq, Char.le_def, UInt32.le_iff_toNat_le]
  exact Iff.rfl

theorem isWordStart_of_axis {c : Char} {axis : Axis} (h : Axis.ofLetter? c = some axis) :
    isWordStart c = true := by
  have hletter : axis.letter = c.toUpper := by
    have hfound := List.find?_some h
    simpa using hfound
  have hupper : c.toUpper.isAlpha = true := by
    rw [← hletter]
    cases axis <;> decide
  have halpha : c.isAlpha = true := by
    by_cases hlower : 97 ≤ c.val ∧ c.val ≤ 122
    · exact isAlpha_iff.2 (.inr hlower)
    · have hsame : c.toUpper = c := dif_neg hlower
      rwa [hsame] at hupper
  simp [isWordStart, halpha]

theorem isWordPart_of_isDigit {c : Char} (h : Text.isDigit c = true) : isWordPart c = true := by
  have hdigit : c.isDigit = true := h
  simp [isWordPart, Char.isAlphanum, hdigit]

theorem isDigit_eq_false_of_isWordStart {c : Char} (h : isWordStart c = true) :
    Text.isDigit c = false := by
  rw [Bool.eq_false_iff, ne_eq, isDigit_iff]
  rw [isWordStart, Bool.or_eq_true, isAlpha_iff, decide_eq_true_eq] at h
  rcases h with (hupper | hlower) | rfl
  · omega
  · omega
  · decide

/-- What starts a word starts nothing else. -/
theorem lexeme_of_isWordStart {c : Char} (cs : List Char) (h : isWordStart c = true) :
    lexeme c cs = word (c :: cs) := by
  have hne : ∀ d, isWordStart d = false → c ≠ d := by
    intro d hd heq
    rw [heq, hd] at h
    cases h
  have hblank : isBlank c = false := by
    simp [isBlank, hne ' ' rfl, hne '\t' rfl, hne '\r' rfl, hne '\n' rfl]
  have hslash : c ≠ '/' := hne '/' rfl
  have hquote : ¬ (c = '\"' ∨ c = '\'') := by
    simp [hne '\"' rfl, hne '\'' rfl]
  have hdigit : Text.isDigit c = false := isDigit_eq_false_of_isWordStart h
  simp [lexeme, hblank, hslash, hquote, hdigit, h]

/-- What starts a number starts nothing else. -/
theorem lexeme_of_isDigit {c : Char} (cs : List Char) (h : Text.isDigit c = true) :
    lexeme c cs = number (c :: cs) := by
  have hne : ∀ d, Text.isDigit d = false → c ≠ d := by
    intro d hd heq
    rw [heq, hd] at h
    cases h
  have hblank : isBlank c = false := by
    simp [isBlank, hne ' ' rfl, hne '\t' rfl, hne '\r' rfl, hne '\n' rfl]
  have hslash : c ≠ '/' := hne '/' rfl
  have hquote : ¬ (c = '\"' ∨ c = '\'') := by
    simp [hne '\"' rfl, hne '\'' rfl]
  simp [lexeme, hblank, hslash, hquote, h]

theorem lexeme_of_quote {c : Char} (cs : List Char) (h : c = '\"' ∨ c = '\'') :
    lexeme c cs =
      match quotedText? c cs with
      | some (value, text, rest) => .ok ⟨some (.text (String.ofList value)), c :: text, rest⟩
      | none => .error .unterminatedText := by
  rcases h with rfl | rfl <;> rfl

/-- What the first characters of a text say about its first lexeme. -/
inductive FirstChar : Char → List Char → Prop where
  | blank {c : Char} {cs : List Char} (hc : isBlank c = true)
    (h : lexeme c cs = .ok ⟨none, [c], cs⟩) : FirstChar c cs
  | line {cs : List Char} (h : lexeme '/' ('/' :: cs) = .ok (lineComment ('/' :: '/' :: cs))) :
    FirstChar '/' ('/' :: cs)
  | block (cs : List Char)
    (h : lexeme '/' ('*' :: cs) =
      match blockComment? cs with
      | some (text, rest) => .ok ⟨none, '/' :: '*' :: text, rest⟩
      | none => .error .unterminatedComment) : FirstChar '/' ('*' :: cs)
  | quote {c : Char} {cs : List Char} (hc : c = '\"' ∨ c = '\'')
    (h : lexeme c cs =
      match quotedText? c cs with
      | some (value, text, rest) => .ok ⟨some (.text (String.ofList value)), c :: text, rest⟩
      | none => .error .unterminatedText) : FirstChar c cs
  | digit {c : Char} {cs : List Char} (hc : Text.isDigit c = true)
    (h : lexeme c cs = number (c :: cs)) : FirstChar c cs
  | word {c : Char} {cs : List Char} (hc : isWordStart c = true)
    (h : lexeme c cs = word (c :: cs)) : FirstChar c cs
  | other {c : Char} {cs : List Char} (hblank : isBlank c = false)
    (hquote : ¬ (c = '\"' ∨ c = '\'')) (hdigit : Text.isDigit c = false)
    (hword : isWordStart c = false)
    (h : lexeme c cs =
      match symbol? (c :: cs) with
      | some (symbol, text, rest) => .ok ⟨some (.symbol symbol), text, rest⟩
      | none => .error (.unexpectedCharacter c)) : FirstChar c cs

/-- One of the cases holds of every text. -/
theorem FirstChar.of (c : Char) (cs : List Char) : FirstChar c cs := by
  by_cases hblank : isBlank c = true
  · exact .blank hblank (if_pos hblank)
  by_cases hline : c = '/' ∧ cs.head? = some '/'
  · obtain ⟨rfl, hslash⟩ := hline
    obtain ⟨more, rfl⟩ := List.head?_eq_some_iff.1 hslash
    exact .line rfl
  by_cases hblock : c = '/' ∧ cs.head? = some '*'
  · obtain ⟨rfl, hstar⟩ := hblock
    obtain ⟨more, rfl⟩ := List.head?_eq_some_iff.1 hstar
    exact .block more rfl
  by_cases hquote : c = '\"' ∨ c = '\''
  · exact .quote hquote (lexeme_of_quote cs hquote)
  by_cases hdigit : Text.isDigit c = true
  · exact .digit hdigit (lexeme_of_isDigit cs hdigit)
  by_cases hword : isWordStart c = true
  · exact .word hword (lexeme_of_isWordStart cs hword)
  refine .other (Bool.eq_false_iff.2 hblank) hquote (Bool.eq_false_iff.2 hdigit)
    (Bool.eq_false_iff.2 hword) ?_
  rewrite [lexeme, if_neg hblank, if_neg hline, if_neg hblock, if_neg hquote, if_neg hdigit,
    if_neg hword]
  rfl

/-! ## Runs of characters -/

section Runs

variable {p : Char → Bool} {front rest : List Char}

theorem takeWhile_append_stop (hfront : ∀ d ∈ front, p d = true)
    (hstop : ∀ d ∈ rest.head?, p d = false) : (front ++ rest).takeWhile p = front := by
  have hrest : rest.takeWhile p = [] := by
    cases rest with
    | nil => rfl
    | cons d ds => simp [hstop d rfl]
  rw [List.takeWhile_append_of_pos hfront, hrest, List.append_nil]

theorem dropWhile_append_stop (hfront : ∀ d ∈ front, p d = true)
    (hstop : ∀ d ∈ rest.head?, p d = false) : (front ++ rest).dropWhile p = rest := by
  rw [List.dropWhile_append_of_pos hfront]
  cases rest with
  | nil => rfl
  | cons d ds => simp [hstop d rfl]

end Runs

/-! ## Quoted texts -/

theorem quotedText?_sound {quote : Char} {cs value text rest : List Char}
    (h : quotedText? quote cs = some (value, text, rest)) : Quoted quote value text := by
  fun_induction quotedText? quote cs generalizing value text rest with
  | case1 => cases h
  | case2 => cases h
  | case3 c cs ih =>
    obtain ⟨⟨v, t, r⟩, hc, ht⟩ := Option.map_eq_some_iff.1 h
    cases ht
    exact .escaped c (ih hc)
  | case4 cs hlast hescape =>
    cases h
    exact .close
  | case5 c cs hlast hescape hquote ih =>
    obtain ⟨⟨v, t, r⟩, hc, ht⟩ := Option.map_eq_some_iff.1 h
    cases ht
    refine .plain c ?_ hquote (ih hc)
    cases cs with
    | nil => exact fun heq => hlast heq rfl
    | cons d ds => exact fun heq => hescape d ds heq rfl

theorem quotedText?_complete {quote : Char} (hquote : quote ≠ '\\') {value text : List Char}
    (h : Quoted quote value text) (rest : List Char) :
    quotedText? quote (text ++ rest) = some (value, text, rest) := by
  induction h with
  | close => simp [quotedText?, hquote]
  | escaped c h ih => simp [quotedText?, ih]
  | plain c hescape hplain h ih => simp [quotedText?, hescape, hplain, ih]

/-! ## Numbers -/

theorem number_sound {c : Char} {cs : List Char} (hc : Text.isDigit c = true) {l : Lexeme}
    (h : number (c :: cs) = .ok l) : l.Spelled := by
  unfold number at h
  dsimp only at h
  split at h
  · cases h
  · split at h
    · cases h
    · next value hvalue =>
      cases h
      refine ⟨_, rfl, .int ⟨?_, fun d hd => List.mem_takeWhile_imp hd⟩ (fit64_eq_some_iff.1 hvalue)⟩
      rw [List.takeWhile_cons_of_pos hc]
      exact List.cons_ne_nil _ _

theorem isDigit_eq_false_of_not_isWordPart {d : Char} (h : isWordPart d = false) :
    Text.isDigit d = false := by
  rw [Bool.eq_false_iff]
  intro hdigit
  rw [isWordPart_of_isDigit hdigit] at h
  cases h

theorem isWordStart_eq_false_of_not_isWordPart {d : Char} (h : isWordPart d = false) :
    isWordStart d = false := by
  rw [Bool.eq_false_iff]
  intro hstart
  rw [isWordPart_of_isWordStart hstart] at h
  cases h

theorem number_complete {digits : List Char} (hdigits : IsNumeral digits) {value : Int64}
    (hvalue : value.toInt = Text.natOfDigits digits) {rest : List Char}
    (hrest : ∀ d ∈ rest.head?, isWordPart d = false) :
    number (digits ++ rest) = .ok ⟨some (.int value), digits, rest⟩ := by
  have hstop : ∀ d ∈ rest.head?, Text.isDigit d = false :=
    fun d hd => isDigit_eq_false_of_not_isWordPart (hrest d hd)
  have hclear : rest.head?.any isWordStart = false := by
    cases rest with
    | nil => rfl
    | cons d ds => exact isWordStart_eq_false_of_not_isWordPart (hrest d rfl)
  unfold number
  dsimp only
  rw [takeWhile_append_stop hdigits.all hstop, dropWhile_append_stop hdigits.all hstop, hclear,
    fit64_eq_some_iff.2 hvalue]
  rfl

/-! ## Symbols -/

theorem symbol?_sound {input text rest : List Char} {s : Symbol}
    (h : symbol? input = some (s, text, rest)) : text = s.spelling.toList := by
  unfold symbol? at h
  split at h <;> cases h <;> rfl

/-! ## Words -/

theorem ofWord?_eq_some {text digits : List Char} {axis : Axis}
    (h : Axis.ofWord? text = some (axis, digits)) :
    ∃ c, text = c :: digits ∧ Axis.ofLetter? c = some axis ∧
      ∀ d ∈ digits, Text.isDigit d = true := by
  cases text with
  | nil => cases h
  | cons c cs =>
    unfold Axis.ofWord? at h
    dsimp only at h
    split at h
    · cases h
    · next axis' haxis =>
      split at h
      · next hdigits =>
        cases h
        exact ⟨c, rfl, haxis, fun d hd => List.all_eq_true.1 hdigits d hd⟩
      · cases h

theorem ofWord?_term {c : Char} {axis : Axis} (haxis : Axis.ofLetter? c = some axis)
    {digits : List Char} (hdigits : ∀ d ∈ digits, Text.isDigit d = true) :
    Axis.ofWord? (c :: digits) = some (axis, digits) := by
  rw [Axis.ofWord?, haxis]
  exact if_pos (List.all_eq_true.2 hdigits)

/-- The part of a word that is read first is the whole word, or a selector term. -/
theorem stem_cases (whole : List Char) :
    (stem whole = whole ∧ ∀ term, Axis.isWord term = true → whole ≠ term ++ ['_']) ∨
      Axis.isWord (stem whole) = true ∧ whole = stem whole ++ ['_'] := by
  unfold stem
  split
  · next h =>
    right
    obtain ⟨term, rfl⟩ := List.getLast?_eq_some_iff.1 h.1
    exact ⟨h.2, by rw [List.dropLast_concat]⟩
  · next h =>
    refine .inl ⟨rfl, ?_⟩
    rintro term hterm rfl
    exact h ⟨List.getLast?_concat, by rwa [List.dropLast_concat]⟩

theorem stem_eq_self {text : List Char}
    (h : ∀ term, Axis.isWord term = true → text ≠ term ++ ['_']) :
    stem text = text := by
  rcases stem_cases text with ⟨hsame, -⟩ | ⟨hterm, hwhole⟩
  · exact hsame
  · exact absurd hwhole (h _ hterm)

theorem ofWord?_eq_keyword {word : String} {k : Keyword} (h : Keyword.ofWord? word = some k) :
    k.spelling = word := by
  have hfound := List.find?_some h
  exact of_decide_eq_true hfound

/-- No selector term has an underscore at its end. -/
theorem ne_append_underscore {c : Char} {digits : List Char}
    (hc : c ≠ '_') (hdigits : ∀ d ∈ digits, Text.isDigit d = true) (term : List Char) :
    c :: digits ≠ term ++ ['_'] := by
  intro heq
  have hlast : '_' ∈ c :: digits := by
    rw [heq]
    exact List.mem_concat_self
  rcases List.mem_cons.1 hlast with hhead | htail
  · exact hc hhead.symm
  · have hdigit := hdigits '_' htail
    cases hdigit

theorem signedDigits?_eq_some {cs : List Char} {sign : Char} {digits rest : List Char}
    (h : signedDigits? cs = some (sign, digits, rest)) :
    (sign = '-' ∨ sign = '+') ∧ IsNumeral digits := by
  unfold signedDigits? at h
  split at h
  · next first more =>
    split at h
    · next hsign =>
      cases h
      refine ⟨hsign.1, ?_, fun d hd => List.mem_takeWhile_imp hd⟩
      cases more with
      | nil => cases hsign.2
      | cons d ds =>
        have hd : Text.isDigit d = true := hsign.2
        rw [List.takeWhile_cons_of_pos hd]
        exact List.cons_ne_nil _ _
    · cases h
  · cases h

theorem signedDigits?_complete {sign : Char} (hsign : sign = '-' ∨ sign = '+')
    {digits : List Char} (hdigits : IsNumeral digits) {rest : List Char}
    (hrest : ∀ d ∈ rest.head?, Text.isDigit d = false) :
    signedDigits? (sign :: (digits ++ rest)) = some (sign, digits, rest) := by
  have hfirst : (digits ++ rest).head?.any Text.isDigit = true := by
    cases digits with
    | nil => exact absurd rfl hdigits.ne_nil
    | cons d ds => exact hdigits.all d List.mem_cons_self
  unfold signedDigits?
  dsimp only
  rw [if_pos ⟨hsign, hfirst⟩, takeWhile_append_stop hdigits.all hrest,
    dropWhile_append_stop hdigits.all hrest]

theorem axisWord_sound {c : Char} {axis : Axis} (haxis : Axis.ofLetter? c = some axis)
    {digits : List Char} (hdigits : ∀ d ∈ digits, Text.isDigit d = true) {after : List Char}
    {l : Lexeme} (h : axisWord axis digits (c :: digits) after = .ok l) : l.Spelled := by
  cases digits with
  | nil =>
    cases hsigned : signedDigits? after with
    | none =>
      simp only [axisWord, hsigned] at h
      cases h
      exact ⟨_, rfl, .axis haxis⟩
    | some found =>
      obtain ⟨sign, signed, more⟩ := found
      obtain ⟨hsign, hnumeral⟩ := signedDigits?_eq_some hsigned
      simp only [axisWord, hsigned] at h
      cases hvalue : magnitude (sign = '-') signed with
      | error fault =>
        rw [hvalue] at h
        cases h
      | ok value =>
        rw [hvalue] at h
        cases h
        exact ⟨_, rfl, .signed haxis hsign hnumeral hvalue⟩
  | cons d ds =>
    simp only [axisWord] at h
    cases hvalue : magnitude false (d :: ds) with
    | error fault =>
      rw [hvalue] at h
      cases h
    | ok value =>
      rw [hvalue] at h
      cases h
      exact ⟨_, rfl, .term haxis ⟨List.cons_ne_nil _ _, hdigits⟩ hvalue⟩

/-- A word is cut off as what it spells. -/
theorem word_sound {c : Char} {cs : List Char} (hc : isWordStart c = true) {l : Lexeme}
    (h : word (c :: cs) = .ok l) : l.Spelled := by
  obtain ⟨ws, hwhole⟩ : ∃ ws, (c :: cs).takeWhile isWordPart = c :: ws :=
    ⟨_, List.takeWhile_cons_of_pos (isWordPart_of_isWordStart hc)⟩
  unfold word at h
  dsimp only at h
  rw [hwhole] at h
  split at h
  · next hunderscore =>
    cases h
    rw [hunderscore]
    exact ⟨_, rfl, .symbol .underscore⟩
  · next hunderscore =>
    split at h
    · next k hkeyword =>
      cases h
      have htext : stem (c :: ws) = k.spelling.toList := by
        rw [ofWord?_eq_keyword hkeyword, String.toList_ofList]
      rw [htext]
      exact ⟨_, rfl, .keyword k⟩
    · next hkeyword =>
      split at h
      · next axis digits haxis =>
        obtain ⟨letter, hstem, hletter, hdigits⟩ := ofWord?_eq_some haxis
        rw [hstem] at h
        exact axisWord_sound hletter hdigits h
      · next haxis =>
        cases h
        -- A stem that is shorter than the word would be a selector term.
        rcases stem_cases (c :: ws) with ⟨hsame, hlowered⟩ | ⟨hterm, -⟩
        · rw [hsame] at hunderscore hkeyword haxis ⊢
          refine ⟨_, rfl, .name ⟨hc, fun d hd => ?_, hunderscore, hkeyword, haxis, hlowered⟩⟩
          have hmem : d ∈ (c :: cs).takeWhile isWordPart := hwhole ▸ List.mem_cons_of_mem c hd
          exact List.mem_takeWhile_imp hmem
        · rw [Axis.isWord, haxis] at hterm
          cases hterm

/-- What is cut off as a token spells it. -/
theorem lexeme_sound {c : Char} {cs : List Char} {t : Token} {text rest : List Char}
    (h : lexeme c cs = .ok ⟨some t, text, rest⟩) : Spelling t text := by
  cases FirstChar.of c cs with
  | blank hc heq =>
    rw [heq] at h
    cases h
  | line heq =>
    rw [heq] at h
    cases h
  | block body heq =>
    rw [heq] at h
    split at h <;> cases h
  | quote hc heq =>
    rw [heq] at h
    split at h
    · next hquoted =>
      cases h
      exact .text hc (quotedText?_sound hquoted)
    · cases h
  | digit hc heq =>
    rw [heq] at h
    obtain ⟨_, ⟨⟩, hspelling⟩ := number_sound hc h
    exact hspelling
  | word hc heq =>
    rw [heq] at h
    obtain ⟨_, ⟨⟩, hspelling⟩ := word_sound hc h
    exact hspelling
  | other hblank hquote hdigit hword heq =>
    rw [heq] at h
    split at h
    · next hsymbol =>
      cases h
      rw [symbol?_sound hsymbol]
      exact .symbol _
    · cases h

/-! ## Spellings are cut off whole -/

/-- A word with its own stem, up to a character that is no part of words. -/
theorem word_of_stop {c : Char} {cs : List Char} (hc : isWordStart c = true)
    (hcs : ∀ d ∈ cs, isWordPart d = true) (hstem : stem (c :: cs) = c :: cs) {rest : List Char}
    (hrest : ∀ d ∈ rest.head?, isWordPart d = false) :
    word (c :: (cs ++ rest)) =
      if c :: cs = ['_'] then .ok ⟨some (.symbol .underscore), c :: cs, rest⟩
      else
        match Keyword.ofWord? (String.ofList (c :: cs)) with
        | some keyword => .ok ⟨some (.keyword keyword), c :: cs, rest⟩
        | none =>
          match Axis.ofWord? (c :: cs) with
          | some (axis, digits) => axisWord axis digits (c :: cs) rest
          | none => .ok ⟨some (.name (String.ofList (c :: cs))), c :: cs, rest⟩ := by
  have hall : ∀ d ∈ c :: cs, isWordPart d = true :=
    List.forall_mem_cons.2 ⟨isWordPart_of_isWordStart hc, hcs⟩
  have hwhole : (c :: (cs ++ rest)).takeWhile isWordPart = c :: cs :=
    takeWhile_append_stop hall hrest
  have hdrop : (c :: (cs ++ rest)).drop (c :: cs).length = rest := List.drop_left
  unfold word
  dsimp only
  rewrite [hwhole, hstem, hdrop]
  rfl

theorem ne_underscore_of_axis {c : Char} {axis : Axis} (h : Axis.ofLetter? c = some axis) :
    c ≠ '_' := by
  rintro rfl
  cases h

theorem keyword_none_of_axis {c : Char} {digits : List Char}
    (hdigits : ∀ d ∈ digits, Text.isDigit d = true) :
    Keyword.ofWord? (String.ofList (c :: digits)) = none := by
  cases hfound : Keyword.ofWord? (String.ofList (c :: digits)) with
  | none => rfl
  | some k =>
    exfalso
    have hspelling := congrArg String.toList (ofWord?_eq_keyword hfound)
    rw [String.toList_ofList] at hspelling
    have htail : k.spelling.toList.tail.all Text.isDigit = true := by
      rw [hspelling]
      exact List.all_eq_true.2 hdigits
    cases k <;> revert htail <;> decide

/-- A selector term is read as one. -/
theorem lexeme_term {c : Char} {axis : Axis} (haxis : Axis.ofLetter? c = some axis)
    {digits : List Char} (hdigits : ∀ d ∈ digits, Text.isDigit d = true) {rest : List Char}
    (hrest : ∀ d ∈ rest.head?, isWordPart d = false) :
    lexeme c (digits ++ rest) = axisWord axis digits (c :: digits) rest := by
  have hc := isWordStart_of_axis haxis
  have hlast := ne_append_underscore (ne_underscore_of_axis haxis) hdigits
  have hne : c :: digits ≠ ['_'] := hlast []
  have hstem : stem (c :: digits) = c :: digits := stem_eq_self fun term _ => hlast term
  have hpart : ∀ d ∈ digits, isWordPart d = true := fun d hd => isWordPart_of_isDigit (hdigits d hd)
  rw [lexeme_of_isWordStart _ hc, word_of_stop hc hpart hstem hrest, if_neg hne,
    keyword_none_of_axis hdigits, ofWord?_term haxis hdigits]

theorem signedDigits?_eq_none {rest : List Char}
    (hrest : ∀ d ∈ rest.head?, d ≠ '-' ∧ d ≠ '+') : signedDigits? rest = none := by
  cases rest with
  | nil => rfl
  | cons d ds =>
    obtain ⟨hminus, hplus⟩ := hrest d rfl
    simp [signedDigits?, hminus, hplus]

theorem lexeme_name {c : Char} {cs : List Char} (h : IsNameWord c cs) {rest : List Char}
    (hrest : ∀ d ∈ rest.head?, isWordPart d = false) :
    lexeme c (cs ++ rest) = .ok ⟨some (.name (String.ofList (c :: cs))), c :: cs, rest⟩ := by
  rw [lexeme_of_isWordStart _ h.start,
    word_of_stop h.start h.part (stem_eq_self h.not_lowered) hrest, if_neg h.not_underscore,
    h.not_keyword, h.not_term]

theorem lexeme_keyword (k : Keyword) {rest : List Char}
    (hrest : ∀ d ∈ rest.head?, isWordPart d = false) :
    ∃ c cs, k.spelling.toList = c :: cs ∧
      lexeme c (cs ++ rest) = .ok ⟨some (.keyword k), c :: cs, rest⟩ := by
  obtain ⟨c, cs, hspelling⟩ : ∃ c cs, k.spelling.toList = c :: cs := by
    cases k <;> exact ⟨_, _, rfl⟩
  have hstart : (k.spelling.toList.head?.any isWordStart) = true := by cases k <;> decide
  have hparts : (k.spelling.toList.tail.all isWordPart) = true := by cases k <;> decide
  have hstem : stem k.spelling.toList = k.spelling.toList := by cases k <;> decide
  have hunderscore : k.spelling.toList ≠ ['_'] := by cases k <;> decide
  have hkeyword : Keyword.ofWord? (String.ofList k.spelling.toList) = some k := by
    rw [String.ofList_toList]
    cases k <;> decide
  rw [hspelling] at hstart hparts hstem hunderscore hkeyword
  have hcs : ∀ d ∈ cs, isWordPart d = true := List.all_eq_true.1 hparts
  refine ⟨c, cs, hspelling, ?_⟩
  rw [lexeme_of_isWordStart _ hstart, word_of_stop hstart hcs hstem hrest, if_neg hunderscore,
    hkeyword]

/-- One of the symbols that an equals sign would make longer. -/
theorem lexeme_comparison {c : Char} {s : Symbol}
    (hs : c = '=' ∧ s = .assign ∨ c = '!' ∧ s = .bang ∨ c = '<' ∧ s = .less ∨
      c = '>' ∧ s = .greater) {rest : List Char}
    (hrest : ∀ d ∈ rest.head?, (Token.symbol s).sticks d = false) :
    lexeme c rest = .ok ⟨some (.symbol s), [c], rest⟩ := by
  cases rest with
  | nil => rcases hs with ⟨rfl, rfl⟩ | ⟨rfl, rfl⟩ | ⟨rfl, rfl⟩ | ⟨rfl, rfl⟩ <;> rfl
  | cons d ds =>
    have hd : d ≠ '=' := by
      have hstick := hrest d rfl
      rcases hs with ⟨-, rfl⟩ | ⟨-, rfl⟩ | ⟨-, rfl⟩ | ⟨-, rfl⟩ <;>
        simpa [Token.sticks] using hstick
    rcases hs with ⟨rfl, rfl⟩ | ⟨rfl, rfl⟩ | ⟨rfl, rfl⟩ | ⟨rfl, rfl⟩ <;>
      simp [lexeme, isBlank, Text.isDigit, isWordStart, symbol?, hd]

/-- A symbol is cut off unless the next character makes a longer one of it, or a comment. -/
theorem lexeme_symbol (s : Symbol) {rest : List Char}
    (hrest : ∀ d ∈ rest.head?, (Token.symbol s).sticks d = false) :
    ∃ c cs, s.spelling.toList = c :: cs ∧
      lexeme c (cs ++ rest) = .ok ⟨some (.symbol s), c :: cs, rest⟩ := by
  cases s with
  | underscore =>
    have hnone : ∀ d ∈ ([] : List Char), isWordPart d = true := nofun
    refine ⟨'_', [], rfl, ?_⟩
    rw [lexeme_of_isWordStart _ rfl, word_of_stop rfl hnone (by decide) hrest]
    rfl
  | slash =>
    refine ⟨'/', [], rfl, ?_⟩
    cases rest with
    | nil => rfl
    | cons d ds =>
      have hd := hrest d rfl
      simp only [Token.sticks, Bool.or_eq_false_iff, decide_eq_false_iff_not] at hd
      simp [lexeme, isBlank, hd.1, hd.2, Text.isDigit, isWordStart, symbol?]
  | assign => exact ⟨'=', [], rfl, lexeme_comparison (by decide) hrest⟩
  | bang => exact ⟨'!', [], rfl, lexeme_comparison (by decide) hrest⟩
  | less => exact ⟨'<', [], rfl, lexeme_comparison (by decide) hrest⟩
  | greater => exact ⟨'>', [], rfl, lexeme_comparison (by decide) hrest⟩
  | _ => exact ⟨_, _, rfl, rfl⟩

end Lexer

/-- A spelling is cut off whole wherever the next character does not stick to its token. -/
theorem Spelling.lexeme {t : Token} {text rest : List Char} (h : Spelling t text)
    (hrest : ∀ d ∈ rest.head?, t.sticks d = false) :
    ∃ c cs, text = c :: cs ∧ Lexer.lexeme c (cs ++ rest) = .ok ⟨some t, text, rest⟩ := by
  have hnone : ∀ d ∈ ([] : List Char), Text.isDigit d = true := nofun
  cases h with
  | @name c cs h => exact ⟨c, cs, rfl, Lexer.lexeme_name h hrest⟩
  | int hdigits hvalue =>
    have hnumber := Lexer.number_complete hdigits hvalue hrest
    cases text with
    | nil => exact absurd rfl hdigits.ne_nil
    | cons d ds =>
      refine ⟨d, ds, rfl, ?_⟩
      rw [Lexer.lexeme_of_isDigit _ (hdigits.all d List.mem_cons_self)]
      exact hnumber
  | @text quote value body hquote h =>
    have hescape : quote ≠ '\\' := by rcases hquote with rfl | rfl <;> decide
    refine ⟨quote, body, rfl, ?_⟩
    rw [Lexer.lexeme_of_quote _ hquote, Lexer.quotedText?_complete hescape h]
  | @axis c axis haxis =>
    have hclear : ∀ d ∈ rest.head?, Lexer.isWordPart d = false ∧ d ≠ '+' ∧ d ≠ '-' := by
      intro d hd
      simpa [Token.sticks, and_assoc] using hrest d hd
    have hunsigned : Lexer.signedDigits? rest = none :=
      Lexer.signedDigits?_eq_none fun d hd => (hclear d hd).2.symm
    refine ⟨c, [], rfl, ?_⟩
    rw [Lexer.lexeme_term haxis hnone fun d hd => (hclear d hd).1]
    simp only [Lexer.axisWord, hunsigned]
  | @term c axis digits magnitude haxis hdigits hvalue =>
    refine ⟨c, digits, rfl, ?_⟩
    rw [Lexer.lexeme_term haxis hdigits.all hrest]
    cases digits with
    | nil => exact absurd rfl hdigits.ne_nil
    | cons d ds =>
      simp only [Lexer.axisWord, hvalue]
      rfl
  | @signed c sign axis digits magnitude haxis hsign hdigits hvalue =>
    have hclear : ∀ d ∈ (sign :: (digits ++ rest)).head?, Lexer.isWordPart d = false := by
      rintro d ⟨⟩
      rcases hsign with rfl | rfl <;> decide
    have hstop : ∀ d ∈ rest.head?, Text.isDigit d = false :=
      fun d hd => Lexer.isDigit_eq_false_of_not_isWordPart (hrest d hd)
    have hterm : Lexer.lexeme c (sign :: (digits ++ rest)) = _ :=
      Lexer.lexeme_term haxis hnone hclear
    refine ⟨c, sign :: digits, rfl, ?_⟩
    rw [List.cons_append, hterm]
    simp only [Lexer.axisWord, Lexer.signedDigits?_complete hsign hdigits hstop, hvalue]
    rfl
  | keyword k =>
    obtain ⟨c, cs, hspelling, hlexeme⟩ := Lexer.lexeme_keyword k hrest
    exact ⟨c, cs, hspelling, hspelling ▸ hlexeme⟩
  | symbol s =>
    obtain ⟨c, cs, hspelling, hlexeme⟩ := Lexer.lexeme_symbol s hrest
    exact ⟨c, cs, hspelling, hspelling ▸ hlexeme⟩

end BlockScript
