import BlockScript.Proofs.Token.Writing

/-!
# Reading a part of a text

The lexer cuts lexemes off a text until it stands at the rest of it. Lexemes that end before some
point are cut off just so when a blank stands at that point or the text ends there, whatever stood
there before: every look ahead of the lexer takes a blank for the end.
-/
namespace BlockScript
set_option autoImplicit false

namespace Lexer

/-! ## Blanks behind a lexeme -/

theorem isBlank_iff {d : Char} : isBlank d = true ↔ d = ' ' ∨ d = '\t' ∨ d = '\r' ∨ d = '\n' := by
  simp only [isBlank, Bool.or_eq_true, decide_eq_true_eq, or_assoc]

theorem isWordPart_of_isBlank {d : Char} (h : isBlank d = true) : isWordPart d = false := by
  rcases isBlank_iff.1 h with rfl | rfl | rfl | rfl <;> decide

theorem ne_sign_of_isBlank {d : Char} (h : isBlank d = true) : d ≠ '-' ∧ d ≠ '+' := by
  rcases isBlank_iff.1 h with rfl | rfl | rfl | rfl <;> decide

theorem sticks_of_isBlank (t : Token) {d : Char} (h : isBlank d = true) : t.sticks d = false := by
  have hpart := isWordPart_of_isBlank h
  have hsign := ne_sign_of_isBlank h
  have hmark : d ≠ '=' ∧ d ≠ '/' ∧ d ≠ '*' := by
    rcases isBlank_iff.1 h with rfl | rfl | rfl | rfl <;> decide
  cases t with
  | axis axis magnitude spelling => cases magnitude <;> simp [Token.sticks, hpart, hsign]
  | symbol s => cases s <;> simp [Token.sticks, hpart, hmark]
  | text value => rfl
  | _ => exact hpart

/-- A blank comes next, or the text ends. -/
def BlankNext (stop : List Char) : Prop := ∀ d ∈ stop.head?, isBlank d = true

section Blank

variable {rest tail front stop : List Char}

/-- What the first character of the rest is known not to be, a blank is not either. -/
theorem head_before_blank {p : Char → Bool} (hp : ∀ d, isBlank d = true → p d = false)
    (hstop : BlankNext stop) (h : ∀ e ∈ (rest ++ tail).head?, p e = false) :
    ∀ e ∈ (rest ++ stop).head?, p e = false := by
  cases rest with
  | nil => exact fun e he => hp e (hstop e he)
  | cons e es => exact h

theorem isDigit_of_isBlank {d : Char} (h : isBlank d = true) : Text.isDigit d = false :=
  isDigit_eq_false_of_not_isWordPart (isWordPart_of_isBlank h)

theorem signedDigits?_before_blank (hstop : BlankNext stop)
    (h : signedDigits? (rest ++ tail) = none) : signedDigits? (rest ++ stop) = none := by
  match rest with
  | [] => exact signedDigits?_eq_none fun e he => ne_sign_of_isBlank (hstop e he)
  | [sign] =>
    have hdigit : stop.head?.any Text.isDigit = false := by
      cases stop with
      | nil => rfl
      | cons d more => exact isDigit_of_isBlank (hstop d rfl)
    exact if_neg fun hsigned => Bool.false_ne_true (hdigit.symm.trans hsigned.2)
  | sign :: e :: es =>
    have hnot : ¬ ((sign = '-' ∨ sign = '+') ∧ Text.isDigit e = true) := by
      intro hsigned
      change (if (sign = '-' ∨ sign = '+') ∧ Text.isDigit e = true then _ else _) = none at h
      rw [if_pos hsigned] at h
      cases h
    exact if_neg hnot

theorem axisWord_before_blank (hstop : BlankNext stop) {axis : Axis} {digits word : List Char}
    {l : Lexeme} (h : axisWord axis digits word (front ++ tail) = .ok l)
    (hl : l.rest = rest ++ tail) :
    axisWord axis digits word (front ++ stop) = .ok { l with rest := rest ++ stop } := by
  cases digits with
  | nil =>
    cases hsigned : signedDigits? (front ++ tail) with
    | none =>
      simp only [axisWord, hsigned] at h
      cases h
      obtain rfl := List.append_cancel_right hl
      simp only [axisWord, signedDigits?_before_blank hstop hsigned]
    | some found =>
      obtain ⟨sign, signed, after⟩ := found
      obtain ⟨hsign, hnumeral⟩ := signedDigits?_eq_some hsigned
      simp only [axisWord, hsigned] at h
      cases hvalue : magnitude (sign = '-') signed with
      | error fault =>
        rw [hvalue] at h
        cases h
      | ok value =>
        rw [hvalue] at h
        cases h
        obtain rfl : after = rest ++ tail := hl
        have hsplit := signedDigits?_split hsigned
        rw [← List.append_assoc] at hsplit
        obtain rfl := List.append_cancel_right hsplit
        have hsigned' : signedDigits? (sign :: signed ++ rest ++ stop) =
            some (sign, signed, rest ++ stop) := by
          rw [List.append_assoc]
          exact signedDigits?_complete hsign hnumeral
            (head_before_blank (fun _ => isDigit_of_isBlank) hstop (signedDigits?_rest hsigned))
        simp only [axisWord, hsigned', hvalue]
        rfl
  | cons e es =>
    simp only [axisWord] at h ⊢
    cases hvalue : magnitude false (e :: es) with
    | error fault =>
      rw [hvalue] at h
      cases h
    | ok value =>
      rw [hvalue] at h
      cases h
      obtain rfl := List.append_cancel_right hl
      rfl

theorem stem_of_isWord {word : List Char} (h : Axis.isWord word = true) : stem word = word := by
  obtain ⟨⟨axis, digits⟩, hword⟩ := Option.isSome_iff_exists.1 h
  obtain ⟨c, rfl, haxis, hdigits⟩ := ofWord?_eq_some hword
  exact stem_eq_self fun term _ => ne_append_underscore (ne_underscore_of_axis haxis) hdigits term

/-- The part of a word that is read first stays the same if it ends before the blank. -/
theorem stem_before_blank (hblank : BlankNext stop)
    (h : stem ((front ++ tail).takeWhile isWordPart) <+: front) :
    stem ((front ++ stop).takeWhile isWordPart) =
      stem ((front ++ tail).takeWhile isWordPart) := by
  obtain ⟨after, hafter⟩ := h
  have hall : ∀ e ∈ (front ++ tail).takeWhile isWordPart, isWordPart e = true :=
    fun e he => List.mem_takeWhile_imp he
  have hstop := head?_dropWhile isWordPart (front ++ tail)
  have hsplit := List.takeWhile_append_dropWhile (p := isWordPart) (l := front ++ tail)
  generalize (front ++ tail).takeWhile isWordPart = whole at *
  generalize (front ++ tail).dropWhile isWordPart = left at *
  -- Either the whole word ends before the blank, or only its final underscore does not.
  have hwhole : ∀ after, front = whole ++ after →
      (front ++ stop).takeWhile isWordPart = whole := by
    rintro after rfl
    rw [List.append_assoc] at hsplit
    obtain rfl := List.append_cancel_left hsplit
    rw [List.append_assoc]
    exact takeWhile_append_stop hall
      (head_before_blank (fun _ => isWordPart_of_isBlank) hblank hstop)
  rcases stem_cases whole with ⟨hsame, -⟩ | ⟨hterm, hlowered⟩
  · rw [hsame] at hafter
    rw [hwhole after hafter.symm]
  · generalize hstem : stem whole = text at hterm hlowered hafter ⊢
    subst hlowered hafter
    rw [List.append_assoc, List.append_assoc] at hsplit
    have hnext : '_' :: left = after ++ tail := List.append_cancel_left hsplit
    cases after with
    | nil =>
      have hfront : (text ++ [] ++ stop).takeWhile isWordPart = text := by
        rw [List.append_nil]
        exact takeWhile_append_stop (fun e he => hall e (List.mem_append_left _ he))
          fun e he => isWordPart_of_isBlank (hblank e he)
      rw [hfront]
      exact stem_of_isWord hterm
    | cons e es =>
      obtain ⟨rfl, -⟩ := List.cons.inj hnext
      rw [hwhole es (List.append_cons ..)]
      exact hstem

theorem axisWord_front {axis : Axis} {digits word after : List Char} {l : Lexeme}
    (h : axisWord axis digits word after = .ok l) : word <+: l.text := by
  unfold axisWord at h
  split at h
  · cases h
    exact List.prefix_rfl
  · simp only [bind, Except.bind, pure, Except.pure] at h
    split at h
    · cases h
    · cases h
      exact List.prefix_append ..
  · simp only [bind, Except.bind, pure, Except.pure] at h
    split at h
    · cases h
    · cases h
      exact List.prefix_rfl

theorem word_front {input : List Char} {l : Lexeme} (h : word input = .ok l) :
    stem (input.takeWhile isWordPart) <+: l.text := by
  unfold word at h
  dsimp only at h
  split at h
  · cases h
    exact List.prefix_rfl
  · split at h
    · cases h
      exact List.prefix_rfl
    · split at h
      · exact axisWord_front h
      · cases h
        exact List.prefix_rfl

theorem word_before_blank (hstop : BlankNext stop) {t : Option Token} {text : List Char}
    (h : word (text ++ (rest ++ tail)) = .ok ⟨t, text, rest ++ tail⟩) :
    word (text ++ (rest ++ stop)) = .ok ⟨t, text, rest ++ stop⟩ := by
  obtain ⟨signed, htext⟩ := word_front h
  rw [← List.append_assoc] at h htext ⊢
  have hstem := stem_before_blank hstop (⟨signed ++ rest, by rw [← List.append_assoc, htext]⟩ :
    stem ((text ++ rest ++ tail).takeWhile isWordPart) <+: text ++ rest)
  unfold word at h ⊢
  dsimp only at h ⊢
  rw [hstem]
  generalize stem ((text ++ rest ++ tail).takeWhile isWordPart) = front at h htext ⊢
  subst htext
  have hdrop (after : List Char) :
      (front ++ signed ++ rest ++ after).drop front.length = signed ++ rest ++ after := by
    rw [List.append_assoc, List.append_assoc, List.drop_left, List.append_assoc]
  -- Only a selector term is longer than the word that is read first.
  have hwhole (s : Option Token)
      (hs : (.ok ⟨s, front, signed ++ rest ++ tail⟩ : Except SyntaxFault Lexeme) =
        .ok ⟨t, front ++ signed, rest ++ tail⟩) :
      (.ok ⟨s, front, signed ++ rest ++ stop⟩ : Except SyntaxFault Lexeme) =
        .ok ⟨t, front ++ signed, rest ++ stop⟩ := by
    injection hs with hs
    injection hs with htoken htext
    rw [List.self_eq_append_right.1 htext, htoken, List.append_nil, List.nil_append]
  rw [hdrop] at h ⊢
  by_cases hunderscore : front = ['_']
  · rw [if_pos hunderscore] at h ⊢
    exact hwhole _ h
  · rw [if_neg hunderscore] at h ⊢
    cases hkeyword : Keyword.ofWord? (String.ofList front) with
    | some keyword =>
      rw [hkeyword] at h
      exact hwhole _ h
    | none =>
      rw [hkeyword] at h
      cases haxis : Axis.ofWord? front with
      | none =>
        rw [haxis] at h
        exact hwhole _ h
      | some found =>
        rw [haxis] at h
        exact axisWord_before_blank hstop h rfl

theorem number_stops {input text : List Char} {t : Token}
    (h : number input = .ok ⟨some t, text, rest⟩) : ∀ e ∈ rest.head?, t.sticks e = false := by
  unfold number at h
  dsimp only at h
  split at h
  · cases h
  · next hword =>
    split at h
    · cases h
    · cases h
      refine endsWord_of (head?_dropWhile _ _) fun e he => ?_
      rw [he] at hword
      exact Bool.eq_false_iff.2 hword

theorem symbol?_stops {input text : List Char} {s : Symbol} (hs : s ≠ .slash)
    (h : symbol? input = some (s, text, rest)) :
    ∀ e ∈ rest.head?, (Token.symbol s).sticks e = false := by
  obtain ⟨hsplit, -⟩ := symbol?_split h
  rw [← hsplit, symbol?_sound h] at h
  intro e he
  obtain ⟨more, rfl⟩ := List.head?_eq_some_iff.1 he
  cases s with
  | assign | bang | less | greater =>
    by_cases heq : e = '='
    · subst heq
      cases h
    · simp [Token.sticks, heq]
  | slash => exact absurd rfl hs
  | underscore => cases h
  | _ => rfl

theorem lexeme_block {cs : List Char} {body : List Char × List Char}
    (h : blockComment? cs = some body) :
    lexeme '/' ('*' :: cs) = .ok ⟨none, '/' :: '*' :: body.1, body.2⟩ := by
  simp [lexeme, h, isBlank]

theorem lexeme_unterminated {cs : List Char} (h : blockComment? cs = none) :
    lexeme '/' ('*' :: cs) = .error .unterminatedComment := by
  simp [lexeme, h, isBlank]

/-- A slash is a symbol only where it opens no comment. -/
theorem slash_stops {cs : List Char}
    (h : lexeme '/' cs = .ok ⟨some (.symbol .slash), ['/'], cs⟩) :
    ∀ e ∈ cs.head?, (Token.symbol .slash).sticks e = false := by
  intro e he
  obtain ⟨more, rfl⟩ := List.head?_eq_some_iff.1 he
  by_cases hline : e = '/'
  · subst hline
    cases h
  by_cases hblock : e = '*'
  · subst hblock
    cases hbody : blockComment? more with
    | none => cases (lexeme_unterminated hbody).symm.trans h
    | some body => cases (lexeme_block hbody).symm.trans h
  simp [Token.sticks, hline, hblock]

/-- Numbers, texts and symbols do not go on with a character that would stick to them. -/
theorem lexeme_stops {c : Char} {cs text : List Char} (hc : isWordStart c = false) {t : Token}
    (h : lexeme c cs = .ok ⟨some t, text, rest⟩) : ∀ e ∈ rest.head?, t.sticks e = false := by
  cases FirstChar.of c cs with
  | blank hblank heq =>
    rw [heq] at h
    cases h
  | line heq =>
    rw [heq] at h
    cases h
  | block body heq =>
    rw [heq] at h
    split at h <;> cases h
  | quote hquote heq =>
    rw [heq] at h
    split at h
    · cases h
      exact fun _ _ => rfl
    · cases h
  | digit hdigit heq =>
    rw [heq] at h
    exact number_stops h
  | word hword heq =>
    rw [hc] at hword
    cases hword
  | other hblank hquote hdigit hword heq =>
    have hlexeme := h
    rw [heq] at h
    split at h
    · next s found after hsymbol =>
      cases h
      by_cases hs : s = .slash
      · subst hs
        obtain ⟨hsplit, -⟩ := symbol?_split hsymbol
        obtain rfl := symbol?_sound hsymbol
        cases hsplit
        exact slash_stops hlexeme
      · exact symbol?_stops hs hsymbol
    · cases h

end Blank

/-! ## Filler -/

theorem blockComment?_complete {body : List Char} (h : ¬ ['*', '/'] <:+: body ++ ['*'])
    (rest : List Char) :
    blockComment? (body ++ ['*', '/'] ++ rest) = some (body ++ ['*', '/'], rest) := by
  induction body with
  | nil => rfl
  | cons c cs ih =>
    rw [List.cons_append, List.infix_cons_iff, not_or] at h
    obtain ⟨hfront, hinside⟩ := h
    have hopen : ∀ more, c = '*' → cs ++ ['*', '/'] ++ rest = '/' :: more → False := by
      rintro more rfl hslash
      cases cs with
      | nil => cases hslash
      | cons e es =>
        obtain ⟨rfl, -⟩ := List.cons.inj hslash
        exact hfront ⟨es ++ ['*'], rfl⟩
    rw [List.cons_append, List.cons_append, blockComment?, ih hinside]
    · rfl
    · exact hopen

theorem lineComment_append {body rest : List Char} (hbody : '\n' ∉ body)
    (hend : ∀ d ∈ rest.head?, d = '\n') :
    lineComment ('/' :: '/' :: (body ++ rest)) = ⟨none, '/' :: '/' :: body, rest⟩ := by
  have hall : ∀ d ∈ '/' :: '/' :: body, decide (d ≠ '\n') = true := by
    intro d hd
    rw [decide_eq_true_eq]
    rintro rfl
    simp only [List.mem_cons, hbody, or_false] at hd
    rcases hd with hd | hd <;> cases hd
  have hstop : ∀ d ∈ rest.head?, decide (d ≠ '\n') = false := by
    intro d hd
    rw [hend d hd]
    rfl
  have htake := takeWhile_append_stop hall hstop
  have hdrop := dropWhile_append_stop hall hstop
  rw [List.cons_append, List.cons_append] at htake hdrop
  rw [lineComment, htake, hdrop]

end Lexer

/-- Filler is cut off without a token. -/
theorem Filler.lexeme {text rest : List Char} (h : Filler text rest) :
    ∃ c cs, text = c :: cs ∧ Lexer.lexeme c (cs ++ rest) = .ok ⟨none, text, rest⟩ := by
  cases h with
  | @blank c rest hc => exact ⟨c, [], rfl, if_pos hc⟩
  | @line body rest hbody hend =>
    refine ⟨'/', '/' :: body, rfl, ?_⟩
    rw [← Lexer.lineComment_append hbody hend]
    rfl
  | @block body rest hbody =>
    refine ⟨'/', '*' :: (body ++ ['*', '/']), rfl, ?_⟩
    exact Lexer.lexeme_block (Lexer.blockComment?_complete hbody rest)

theorem Filler.before_blank {text rest tail stop : List Char} (h : Filler text (rest ++ tail))
    (hline : (∀ e ∈ tail.head?, e = '\n') → ∀ d ∈ stop.head?, d = '\n') :
    Filler text (rest ++ stop) := by
  cases h with
  | blank _ hc => exact .blank _ hc
  | line hbody hend =>
    refine .line hbody fun e he => ?_
    cases rest with
    | nil => exact hline hend e he
    | cons c cs => exact hend e he
  | block _ hbody => exact .block _ hbody

namespace Lexer

/-- A lexeme that ends before some point is cut off just so when a blank stands at that point, or
when the text ends there. Only a line comment must end there with its line. -/
theorem lexeme_before_blank {c : Char} {cs text rest tail stop : List Char} {t : Option Token}
    (h : lexeme c cs = .ok ⟨t, text, rest ++ tail⟩) (hstop : BlankNext stop)
    (hline : (∀ e ∈ tail.head?, e = '\n') → ∀ d ∈ stop.head?, d = '\n') :
    ∃ front, text = c :: front ∧
      lexeme c (front ++ (rest ++ stop)) = .ok ⟨t, text, rest ++ stop⟩ := by
  obtain ⟨hsplit, hne⟩ := lexeme_splits h
  obtain ⟨front, rfl⟩ : ∃ front, text = c :: front := by
    cases text with
    | nil => exact absurd rfl hne
    | cons e front =>
      obtain ⟨rfl, -⟩ := List.cons.inj hsplit
      exact ⟨front, rfl⟩
  obtain rfl : front ++ (rest ++ tail) = cs := (List.cons.inj hsplit).2
  refine ⟨front, rfl, ?_⟩
  cases t with
  | some t =>
    by_cases hc : isWordStart c = true
    · rw [lexeme_of_isWordStart _ hc, ← List.cons_append] at h ⊢
      exact word_before_blank hstop h
    · have hends := lexeme_stops (Bool.eq_false_iff.2 hc) h
      obtain ⟨c', cs', htext, hlexeme⟩ := (lexeme_sound h).lexeme
        (head_before_blank (fun _ => sticks_of_isBlank t) hstop hends)
      cases htext
      exact hlexeme
  | none =>
    obtain ⟨c', cs', htext, hlexeme⟩ := ((lexeme_filler h).before_blank hline).lexeme
    cases htext
    exact hlexeme

/-! ## Parts of a text -/

/-- A lexeme without the text behind it. -/
structure Cut where
  token : Option Token
  text : List Char

/-- The text that has been cut off. -/
def Cut.texts (cuts : List Cut) : List Char := cuts.flatMap Cut.text

theorem Cut.texts_cons (cut : Cut) (cuts : List Cut) :
    Cut.texts (cut :: cuts) = cut.text ++ Cut.texts cuts := rfl

/-- The tokens that have been cut off a text that starts at `loc`. -/
def Cut.tokens (loc : Location) : List Cut → List Located
  | [] => []
  | cut :: cuts => (cut.token.map (⟨·, loc⟩)).toList ++ tokens (loc.after cut.text) cuts

/-- Lexemes are cut off the text one by one until the lexer stands at the rest. -/
inductive Reads : (input : List Char) → List Cut → (rest : List Char) → Prop where
  | nil (rest : List Char) : Reads rest [] rest
  | cons {c : Char} {cs rest : List Char} {l : Lexeme} {cuts : List Cut}
    (h : lexeme c cs = .ok l) (hrest : Reads l.rest cuts rest) :
    Reads (c :: cs) (⟨l.token, l.text⟩ :: cuts) rest

end Lexer

/-- The tokens with others in front of them. -/
def TokenList.behind (before : List Located) (list : TokenList) : TokenList :=
  { list with tokens := before ++ list.tokens }

namespace Lexer

theorem scan_nil (loc : Location) : scan loc [] = .ok ⟨[], loc⟩ := by rw [scan]

theorem scan_of_error {c : Char} {cs : List Char} {fault : SyntaxFault}
    (h : lexeme c cs = .error fault) (loc : Location) : scan loc (c :: cs) = .error ⟨loc, fault⟩ := by
  rw [scan]
  split
  · next hfault =>
    rw [h] at hfault
    cases hfault
    rfl
  · next hl =>
    rw [h] at hl
    cases hl

theorem scan_of_lexeme {c : Char} {cs : List Char} {l : Lexeme} (h : lexeme c cs = .ok l)
    (loc : Location) :
    scan loc (c :: cs) =
      (scan (loc.after l.text) l.rest).map (.behind (l.token.map (⟨·, loc⟩)).toList) := by
  rw [scan]
  split
  · next hfault =>
    rw [h] at hfault
    cases hfault
  · next found hfound =>
    rw [h] at hfound
    cases hfound
    cases scan (loc.after l.text) l.rest with
    | error error => rfl
    | ok list => cases l.token <;> rfl

namespace Reads

variable {input rest : List Char} {cuts : List Cut}

theorem split (h : Reads input cuts rest) : Cut.texts cuts ++ rest = input := by
  induction h with
  | nil => rfl
  | cons h _ ih =>
    rw [Cut.texts_cons, List.append_assoc, ih]
    exact (lexeme_splits h).1

theorem append {middle : List Char} {cuts' : List Cut} (h : Reads input cuts middle)
    (h' : Reads middle cuts' rest) : Reads input (cuts ++ cuts') rest := by
  induction h with
  | nil => exact h'
  | cons hlexeme _ ih => exact .cons hlexeme (ih h')

/-- The tokens of a text are those that have been cut off and those of the rest. -/
theorem scan (h : Reads input cuts rest) (loc : Location) :
    Lexer.scan loc input =
      (Lexer.scan (loc.after (Cut.texts cuts)) rest).map (.behind (Cut.tokens loc cuts)) := by
  induction h generalizing loc with
  | nil rest =>
    cases hscan : Lexer.scan loc rest with
    | error error =>
      rw [show loc.after (Cut.texts []) = loc from rfl, hscan]
      rfl
    | ok list =>
      rw [show loc.after (Cut.texts []) = loc from rfl, hscan]
      rfl
  | @cons c cs rest l cuts h _ ih =>
    rw [scan_of_lexeme h, ih, Cut.texts_cons, Location.after_append, Cut.tokens]
    cases Lexer.scan ((loc.after l.text).after (Cut.texts cuts)) rest with
    | error error => rfl
    | ok list =>
      simp only [Except.map, TokenList.behind, List.append_assoc]

/-- A text that is read is cut up completely. -/
theorem of_scan {loc : Location} {list : TokenList} (h : Lexer.scan loc input = .ok list) :
    ∃ cuts, Reads input cuts [] := by
  fun_induction Lexer.scan loc input generalizing list with
  | case1 => exact ⟨[], .nil []⟩
  | case2 => cases h
  | case3 => cases h
  | case4 loc c cs l hlexeme list hlist _ ih =>
    obtain ⟨cuts, hcuts⟩ := ih hlist
    exact ⟨_, .cons hlexeme hcuts⟩
  | case5 loc c cs l hlexeme list hlist _ _ ih =>
    obtain ⟨cuts, hcuts⟩ := ih hlist
    exact ⟨_, .cons hlexeme hcuts⟩

/-- What has been cut off before some point is cut off just so when a blank stands at that point, or
when the text ends there. -/
theorem before_stop {stop : List Char} (h : Reads input cuts rest) (hstop : BlankNext stop)
    (hline : (∀ e ∈ rest.head?, e = '\n') → ∀ d ∈ stop.head?, d = '\n') :
    Reads (Cut.texts cuts ++ stop) cuts stop := by
  induction h with
  | nil rest => exact .nil _
  | @cons c cs rest l cuts h hrest ih =>
    obtain ⟨token, text, after⟩ := l
    obtain rfl : Cut.texts cuts ++ rest = after := hrest.split
    obtain ⟨front, rfl, hlexeme⟩ := lexeme_before_blank h hstop hline
    rw [← List.append_assoc] at hlexeme
    have hreads := Reads.cons hlexeme (ih hline)
    exact hreads

theorem before_blank (h : Reads input cuts rest) {d : Char} (hd : isBlank d = true)
    (hline : (∀ e ∈ rest.head?, e = '\n') → d = '\n') (more : List Char) :
    Reads (Cut.texts cuts ++ d :: more) cuts (d :: more) := by
  refine h.before_stop (fun e he => ?_) fun hrest e he => ?_
  · cases he
    exact hd
  · cases he
    exact hline hrest

/-- What has been cut off is a text of its own. -/
theorem before_end (h : Reads input cuts rest) : Reads (Cut.texts cuts) cuts [] := by
  have hreads : Reads (Cut.texts cuts ++ []) cuts [] := h.before_stop nofun fun _ => nofun
  rwa [List.append_nil] at hreads

/-- Reading up to a token, with the token. -/
theorem up_to_token (h : Reads input cuts rest) {loc : Location} {ts us : List Located}
    {t : Located} (htokens : Cut.tokens loc cuts = ts ++ t :: us) :
    ∃ front text middle, Reads input (front ++ [⟨some t.token, text⟩]) middle ∧
      Cut.tokens loc front = ts ∧ t.loc = loc.after (Cut.texts front) ∧ Spelling t.token text := by
  induction h generalizing loc ts with
  | nil => exact absurd htokens.symm (List.append_ne_nil_of_right_ne_nil _ (List.cons_ne_nil _ _))
  | @cons c cs rest l cuts h hrest ih =>
    obtain ⟨token, text, after⟩ := l
    cases token with
    | none =>
      obtain ⟨front, spelled, middle, hreads, hfront, hloc, hspelled⟩ := ih htokens
      refine ⟨⟨none, text⟩ :: front, spelled, middle, .cons h hreads, hfront, ?_, hspelled⟩
      rw [hloc, Cut.texts_cons, Location.after_append]
    | some token =>
      cases ts with
      | nil =>
        obtain ⟨hfirst, -⟩ := List.cons.inj htokens
        subst hfirst
        exact ⟨[], text, after, .cons h (.nil after), rfl, rfl, lexeme_sound h⟩
      | cons first ts =>
        obtain ⟨rfl, hlater⟩ := List.cons.inj htokens
        obtain ⟨front, spelled, middle, hreads, hfront, hloc, hspelled⟩ := ih hlater
        refine ⟨⟨some token, text⟩ :: front, spelled, middle, .cons h hreads, ?_, ?_, hspelled⟩
        · exact congrArg (⟨token, loc⟩ :: ·) hfront
        · rw [hloc, Cut.texts_cons, Location.after_append]

end Reads

theorem Cut.texts_append (front back : List Cut) :
    texts (front ++ back) = texts front ++ texts back := List.flatMap_append

theorem Cut.tokens_append (loc : Location) (front back : List Cut) :
    tokens loc (front ++ back) = tokens loc front ++ tokens (loc.after (texts front)) back := by
  induction front generalizing loc with
  | nil => rfl
  | cons cut front ih =>
    rw [List.cons_append, tokens, tokens, ih, texts_cons, Location.after_append,
      List.append_assoc]

end Lexer

/-- A text that is read is cut up, and its tokens are those that are cut off. -/
theorem reads_of_tokenize {source : String} {list : TokenList} (h : tokenize source = .ok list) :
    ∃ cuts, Lexer.Reads source.toList cuts [] ∧ list.tokens = Lexer.Cut.tokens .start cuts := by
  obtain ⟨cuts, hcuts⟩ := Lexer.Reads.of_scan h
  have hscan := hcuts.scan .start
  rw [show Lexer.scan .start source.toList = .ok list from h, Lexer.scan_nil] at hscan
  rw [Except.ok.inj hscan]
  exact ⟨cuts, hcuts, List.append_nil _⟩

/-- A text that is cut up to its end is read. -/
theorem Lexer.Reads.tokenize {text : List Char} {cuts : List Cut} (h : Reads text cuts []) :
    BlockScript.tokenize (String.ofList text) =
      .ok ⟨Cut.tokens .start cuts, Location.start.after text⟩ := by
  have hsplit := h.split
  rw [List.append_nil] at hsplit
  rw [BlockScript.tokenize, String.toList_ofList, h.scan, Lexer.scan_nil, hsplit]
  exact congrArg (fun ts => Except.ok (TokenList.mk ts _)) (List.append_nil _)

end BlockScript
