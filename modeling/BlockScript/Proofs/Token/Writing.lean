import BlockScript.Proofs.Token.Lossless

/-!
# Writing tokens

Every token that can be read has one text to write it by. Tokens are written one after the other,
with a blank only where the next one would stick to the one before, and are read back as they were.
-/
namespace BlockScript
set_option autoImplicit false

namespace Token

/-- A character inside double quotes. -/
def quotedChar (c : Char) : List Char := if c = '\\' ∨ c = '\"' then ['\\', c] else [c]

/-- How a token is written. Texts are put in double quotes. -/
def written : Token → List Char
  | name spelling => spelling.toList
  | int value => (toString value.toInt).toList
  | text value => '\"' :: (value.toList.flatMap quotedChar ++ ['\"'])
  | axis _ _ spelling => spelling.toList
  | keyword k => k.spelling.toList
  | symbol s => s.spelling.toList

/-- The written token spells it. -/
def Legible (t : Token) : Prop := Spelling t t.written

/-- Tokens one after the other. -/
def layout : List Token → List Char
  | [] => []
  | t :: ts => t.written ++ ((if (layout ts).head?.any t.sticks then [' '] else []) ++ layout ts)

/-! ## Legible tokens -/

theorem legible_keyword (k : Keyword) : (keyword k).Legible := .keyword k

theorem legible_symbol (s : Symbol) : (symbol s).Legible := .symbol s

theorem legible_name {spelling : String} (h : ReadsAs spelling [.name spelling]) :
    (name spelling).Legible :=
  (readsAs_name spelling).1 h

theorem quoted_written (value : List Char) :
    Quoted '\"' value (value.flatMap quotedChar ++ ['\"']) := by
  induction value with
  | nil => exact .close
  | cons c cs ih =>
    rw [List.flatMap_cons, List.append_assoc]
    by_cases hc : c = '\\' ∨ c = '\"'
    · have hescape : Lexer.escape c = [c] := by rcases hc with rfl | rfl <;> rfl
      have h := Quoted.escaped c ih
      rw [hescape] at h
      rw [quotedChar, if_pos hc]
      exact h
    · obtain ⟨hbackslash, hquote⟩ := not_or.1 hc
      rw [quotedChar, if_neg hc]
      exact .plain c hbackslash hquote ih

theorem legible_text (value : String) : (text value).Legible := by
  have h := Spelling.text (.inl rfl) (quoted_written value.toList)
  rwa [String.ofList_toList] at h

/-! ### Numbers -/

theorem isNumeral_toDigits (n : Nat) : IsNumeral (Nat.toDigits 10 n) where
  ne_nil := Nat.toDigits_ne_nil
  all := fun _ hd => Nat.isDigit_of_mem_toDigits (by decide) (by decide) hd

theorem natOfDigits_toDigits (n : Nat) : Text.natOfDigits (Nat.toDigits 10 n) = n :=
  Nat.ofDigitChars_toDigits (by decide) (by decide)

theorem toList_toString_of_nonneg {n : Int} (h : 0 ≤ n) :
    (toString n).toList = Nat.toDigits 10 n.toNat := by
  obtain ⟨m, rfl⟩ := Int.eq_ofNat_of_zero_le h
  exact Nat.toList_repr

theorem toList_toString_of_neg {n : Int} (h : n < 0) :
    (toString n).toList = '-' :: Nat.toDigits 10 n.natAbs := by
  obtain ⟨m, rfl⟩ := Int.eq_negSucc_of_lt_zero h
  change ("-" ++ (m + 1).repr).toList = _
  rw [String.toList_append, Nat.toList_repr]
  rfl

theorem legible_int {value : Int64} (h : 0 ≤ value.toInt) : (int value).Legible := by
  have hwritten : (int value).written = Nat.toDigits 10 value.toInt.toNat :=
    toList_toString_of_nonneg h
  rw [Legible, hwritten]
  refine .int (isNumeral_toDigits _) ?_
  rw [natOfDigits_toDigits]
  omega

/-! ### Selector terms -/

/-- The token of a term, with its magnitude written out. -/
def ofTerm (term : Term) : Token := .axis term.axis (some term.magnitude) term.key

theorem magnitude_eq_ok {negative : Bool} {digits : List Char} {m : Int32} :
    Lexer.magnitude negative digits = .ok m ↔
      (Text.natOfDigits digits : Int) ≤ Int32.maxValue.toInt ∧
        m.toInt =
          if negative then -(Text.natOfDigits digits : Int) else Text.natOfDigits digits := by
  have hmax : Int32.maxValue.toInt = 2147483647 := by decide
  unfold Lexer.magnitude
  dsimp only
  split
  · next hbig =>
    refine ⟨nofun, fun h => ?_⟩
    omega
  · next hsmall =>
    have hvalue : ∀ n : Int, -2147483648 ≤ n → n < 2147483648 →
        (Except.ok (Int32.ofInt n) = (Except.ok m : Except SyntaxFault Int32) ↔ m.toInt = n) := by
      intro n hlow hhigh
      rw [Except.ok.injEq, ← Int32.toInt_inj, Int32.toInt_ofInt_of_le hlow hhigh]
      exact eq_comm
    rw [hvalue]
    · exact ⟨fun h => ⟨Int.not_lt.1 hsmall, h⟩, fun h => h.2⟩
    · split <;> omega
    · split <;> omega

theorem ofLetter?_letter (axis : Axis) : Axis.ofLetter? axis.letter = some axis := by
  cases axis <;> decide

theorem legible_ofTerm {term : Term} (h : Int32.minValue.toInt < term.magnitude.toInt) :
    (ofTerm term).Legible := by
  have hmin : Int32.minValue.toInt = -2147483648 := by decide
  have hmax : Int32.maxValue.toInt = 2147483647 := by decide
  have hle := term.magnitude.toInt_le
  have hletter := ofLetter?_letter term.axis
  have hkey := term.toList_key
  have hspelling : term.key = String.ofList term.key.toList := String.ofList_toList.symm
  rw [Legible, ofTerm, written]
  by_cases hsign : 0 ≤ term.magnitude.toInt
  · rw [hspelling, String.toList_ofList, hkey, toList_toString_of_nonneg hsign]
    refine .term hletter (isNumeral_toDigits _) (magnitude_eq_ok.2 ?_)
    rw [natOfDigits_toDigits, Int.toNat_of_nonneg hsign]
    exact ⟨by omega, rfl⟩
  · rw [hspelling, String.toList_ofList, hkey, toList_toString_of_neg (Int.not_le.1 hsign)]
    refine .signed hletter (.inl rfl) (isNumeral_toDigits _) (magnitude_eq_ok.2 ?_)
    rw [natOfDigits_toDigits]
    refine ⟨by omega, ?_⟩
    simp only [decide_true, if_true]
    omega

/-! ## Reading back -/

theorem sticks_blank (t : Token) : t.sticks ' ' = false := by
  cases t with
  | axis axis magnitude spelling => cases magnitude <;> rfl
  | symbol s => cases s <;> rfl
  | _ => rfl

end Token

namespace Lexer

theorem scan_blank (loc : Location) (cs : List Char) :
    scan loc (' ' :: cs) = scan (loc.after [' ']) cs := by
  rw [scan]
  split
  · next hfault => cases hfault
  · next l hl =>
    cases hl
    dsimp only
    cases scan (loc.after [' ']) cs <;> rfl

/-- Tokens that are laid out are read back. -/
theorem scan_layout (ts : List Token) (h : ∀ t ∈ ts, t.Legible) (loc : Location) :
    ∃ list, scan loc (Token.layout ts) = .ok list ∧ list.tokens.map Located.token = ts := by
  induction ts generalizing loc with
  | nil => exact ⟨⟨[], loc⟩, by rw [Token.layout, scan], rfl⟩
  | cons t ts ih =>
    obtain ⟨ht, hts⟩ := List.forall_mem_cons.1 h
    rw [Token.layout]
    by_cases hstick : (Token.layout ts).head?.any t.sticks = true
    · rw [if_pos hstick]
      have hclear : ∀ d ∈ ([' '] ++ Token.layout ts).head?, t.sticks d = false := by
        rintro d ⟨⟩
        exact t.sticks_blank
      obtain ⟨c, cs, hwritten, hlexeme⟩ := ht.lexeme hclear
      obtain ⟨list, hlist, htokens⟩ := ih hts ((loc.after t.written).after [' '])
      rw [← scan_blank] at hlist
      rw [hwritten, List.cons_append]
      exact ⟨_, scan_token hlexeme hlist, by rw [List.map_cons, htokens]⟩
    · rw [if_neg hstick, List.nil_append]
      have hclear : ∀ d ∈ (Token.layout ts).head?, t.sticks d = false := by
        intro d hd
        rw [hd] at hstick
        exact Bool.eq_false_iff.2 hstick
      obtain ⟨c, cs, hwritten, hlexeme⟩ := ht.lexeme hclear
      obtain ⟨list, hlist, htokens⟩ := ih hts (loc.after t.written)
      rw [hwritten, List.cons_append]
      exact ⟨_, scan_token hlexeme hlist, by rw [List.map_cons, htokens]⟩

end Lexer

theorem tokenize_layout {ts : List Token} (h : ∀ t ∈ ts, t.Legible) :
    ReadsAs (String.ofList (Token.layout ts)) ts := by
  obtain ⟨list, hlist, htokens⟩ := Lexer.scan_layout ts h .start
  refine ⟨list, ?_, htokens⟩
  rw [tokenize, String.toList_ofList]
  exact hlist

end BlockScript
