import BlockScript.Proofs.Script.RoundTrip
import Mathlib.Data.List.Basic

/-!
# Keys of selectors

The key of a selector names its terms in order, each with its magnitude, and joins them by plus
signs. No term holds a plus and no two terms are written alike, so the key tells the terms. It is
also how the selector would be printed, so it is read back as the same selector wherever it can be
read at all: an empty selector has no text, and the least magnitude has no numeral. A selector that
was read has neither, however it was spelled.
-/
namespace BlockScript
set_option autoImplicit false

open Grammar

/-! ## What a key tells -/

theorem toDigits_ne_minus (n : Nat) (digits : List Char) : Nat.toDigits 10 n ≠ '-' :: digits := by
  intro h
  have hminus := (Token.isNumeral_toDigits n).all '-' (h ▸ List.mem_cons_self)
  cases hminus

theorem toDigits_inj {m n : Nat} (h : Nat.toDigits 10 m = Nat.toDigits 10 n) : m = n := by
  rw [← Token.natOfDigits_toDigits m, h, Token.natOfDigits_toDigits]

theorem toString_int_inj {m n : Int} (h : toString m = toString n) : m = n := by
  have htext := congrArg String.toList h
  by_cases hm : 0 ≤ m
  · rw [Token.toList_toString_of_nonneg hm] at htext
    by_cases hn : 0 ≤ n
    · rw [Token.toList_toString_of_nonneg hn] at htext
      have hvalue := toDigits_inj htext
      omega
    · rw [Token.toList_toString_of_neg (Int.not_le.1 hn)] at htext
      exact absurd htext (toDigits_ne_minus _ _)
  · rw [Token.toList_toString_of_neg (Int.not_le.1 hm)] at htext
    by_cases hn : 0 ≤ n
    · rw [Token.toList_toString_of_nonneg hn] at htext
      exact absurd htext.symm (toDigits_ne_minus _ _)
    · rw [Token.toList_toString_of_neg (Int.not_le.1 hn)] at htext
      have hvalue := toDigits_inj (List.cons.inj htext).2
      omega

namespace Term

theorem key_injective : Function.Injective key := by
  rintro ⟨axis, magnitude⟩ ⟨axis', magnitude'⟩ h
  have htext := congrArg String.toList h
  rw [toList_key, toList_key] at htext
  obtain ⟨hletter, hnumber⟩ := List.cons.inj htext
  have haxis : axis = axis' := by
    rw [← Option.some_inj, ← Token.ofLetter?_letter, ← Token.ofLetter?_letter, hletter]
  have hmagnitude : magnitude = magnitude' :=
    Int32.toInt_inj.1 (toString_int_inj (String.toList_inj.1 hnumber))
  rw [haxis, hmagnitude]

/-- Neither a letter nor a number holds the sign that joins terms. -/
theorem plus_not_mem_key (term : Term) : '+' ∉ term.key.toList := by
  rw [toList_key, List.mem_cons, not_or]
  refine ⟨by cases term.axis <;> decide, ?_⟩
  have hdigits : ∀ n : Nat, '+' ∉ Nat.toDigits 10 n := by
    intro n hplus
    have hdigit := (Token.isNumeral_toDigits n).all '+' hplus
    cases hdigit
  by_cases hsign : 0 ≤ term.magnitude.toInt
  · rw [Token.toList_toString_of_nonneg hsign]
    exact hdigits _
  · rw [Token.toList_toString_of_neg (Int.not_le.1 hsign), List.mem_cons, not_or]
    exact ⟨by decide, hdigits _⟩

end Term

namespace Selector

theorem toList_key (selector : Selector) :
    selector.key.toList =
      ['+'].intercalate (selector.terms.map fun term => term.key.toList) := by
  rw [key, String.toList_intercalate, List.map_map]
  rfl

/-- The keys of the terms stand between the plus signs. -/
theorem splitOn_key {selector : Selector} (h : selector.terms ≠ []) :
    selector.key.toList.splitOn '+' = selector.terms.map fun term => term.key.toList := by
  rw [toList_key]
  refine List.splitOn_intercalate '+' ?_ (mt List.map_eq_nil_iff.1 h)
  exact List.forall_mem_map.2 fun term _ => term.plus_not_mem_key

theorem key_eq_empty_iff {selector : Selector} : selector.key = "" ↔ selector.terms = [] := by
  rw [← String.toList_inj, toList_key]
  cases selector.terms with
  | nil => exact ⟨fun _ => rfl, fun _ => rfl⟩
  | cons term rest =>
    refine ⟨fun h => ?_, nofun⟩
    -- Even the first term alone has a letter.
    cases rest with
    | nil =>
      rw [List.map_singleton, List.intercalate_singleton, Term.toList_key] at h
      cases h
    | cons next more =>
      rw [List.map_cons, List.map_cons, List.intercalate_cons_cons, Term.toList_key] at h
      cases h

/-- Two selectors have one key exactly if they have the same terms in the same order. -/
theorem keys_tell_terms (first second : Selector) :
    first.key = second.key ↔ first.terms = second.terms := by
  constructor
  · intro h
    by_cases hfirst : first.terms = []
    · rw [hfirst]
      rw [← key_eq_empty_iff, h, key_eq_empty_iff] at hfirst
      exact hfirst.symm
    · have hsecond : second.terms ≠ [] := by
        rwa [← key_eq_empty_iff, h, key_eq_empty_iff] at hfirst
      have hkeys := splitOn_key hfirst
      rw [h, splitOn_key hsecond] at hkeys
      have hinjective : Function.Injective fun term : Term => term.key.toList :=
        fun _ _ hkey => Term.key_injective (String.toList_inj.1 hkey)
      exact (hinjective.list_map hkeys).symm
  · intro h
    rw [key, key, h]

end Selector

/-! ## Reading a key -/

theorem layout_cons {t : Token} {ts : List Token}
    (h : ∀ d ∈ (Token.layout ts).head?, t.sticks d = false) :
    Token.layout (t :: ts) = t.written ++ Token.layout ts := by
  have hapart : ¬ (Token.layout ts).head?.any t.sticks = true := by
    rw [Option.any_eq_true]
    rintro ⟨d, hd, hstick⟩
    rw [h d hd] at hstick
    cases hstick
  rw [Token.layout, if_neg hapart, List.nil_append]

/-- A plus does not stick to a term that has its magnitude, nor does the next term to the plus, so
the printer puts no blanks between them. -/
theorem layout_ofTerms (terms : List Term) :
    Token.layout (Tokens.ofTerms terms) =
      ['+'].intercalate (terms.map fun term => term.key.toList) := by
  induction terms with
  | nil => rfl
  | cons term rest ih =>
    cases rest with
    | nil =>
      rw [List.map_singleton, List.intercalate_singleton]
      exact List.append_nil _
    | cons next more =>
      have hplus : Token.layout (.symbol .plus :: Tokens.ofTerms (next :: more)) =
          '+' :: Token.layout (Tokens.ofTerms (next :: more)) :=
        layout_cons fun _ _ => rfl
      have hterm : Token.layout (.ofTerm term :: .symbol .plus :: Tokens.ofTerms (next :: more)) =
          term.key.toList ++ '+' :: Token.layout (Tokens.ofTerms (next :: more)) := by
        rw [layout_cons, hplus]
        · rfl
        · rw [hplus]
          rintro _ ⟨⟩
          rfl
      refine hterm.trans ?_
      rw [ih]
      simp only [List.map_cons, List.intercalate_cons_cons, List.append_assoc,
        List.singleton_append]

theorem key_eq_layout (selector : Selector) :
    selector.key = String.ofList (Token.layout (Tokens.ofTerms selector.terms)) := by
  rw [layout_ofTerms, ← Selector.toList_key, String.ofList_toList]

/-- A text is read as a selector exactly if its tokens are a chain, to the last one. -/
theorem parseSelector_eq_ok {source : String} {selector : Selector} :
    parseSelector source = .ok selector ↔
      ∃ list, tokenize source = .ok list ∧ Chain list.tokens selector := by
  refine runOn_eq_ok.trans ⟨?_, ?_⟩
  · rintro ⟨⟨tokens, stop⟩, rest, hlist, h⟩
    refine ⟨⟨tokens, stop⟩, hlist, ?_⟩
    rcases tokens with _ | ⟨⟨token, loc⟩, ts⟩
    · cases h
    cases token with
    | axis axis magnitude spelling =>
      obtain ⟨value, middle, hvalue, h⟩ := Parser.bind_eq_ok (p := Script.selector) h
      obtain ⟨us, htakes, hchain, -⟩ := selector_sound hvalue
      obtain ⟨tokens', stop'⟩ := middle
      cases tokens' with
      | nil =>
        cases h
        have htokens := htakes.tokens
        rw [List.append_nil] at htokens
        rwa [htokens]
      | cons next more => cases h
    | _ => cases h
  · rintro ⟨⟨tokens, stop⟩, hlist, hchain⟩
    have hfree : Free .primary tokens [] := ⟨nofun, fun hopen => absurd hopen.2 (by decide)⟩
    have hvalue := selector_complete hchain hfree stop
    rw [List.append_nil] at hvalue
    obtain ⟨axis, magnitude, spelling, loc, more, rfl⟩ := hchain.head
    exact ⟨_, ⟨[], stop⟩, hlist, Parser.bind_ok hvalue⟩

theorem wellFormed_of_parseSelector {source : String} {selector : Selector}
    (h : parseSelector source = .ok selector) : selector.WellFormed := by
  obtain ⟨list, hlist, hchain⟩ := parseSelector_eq_ok.1 h
  exact hchain.wellFormed (spelling_of_tokenize hlist)

theorem parseSelector_key {selector : Selector} (h : selector.WellFormed) :
    parseSelector selector.key = .ok selector := by
  obtain ⟨list, hlist, htokens⟩ := tokenize_layout (AllLegible.ofTerms h.2)
  rw [← key_eq_layout] at hlist
  exact parseSelector_eq_ok.2 ⟨list, hlist, .plain (terms_placed h.1 htokens)⟩

/-- Whatever the text that a selector was read from, its key is read as the same selector. A key is
read back exactly if the selector is not empty and no magnitude is the least one. -/
theorem keys_read_back :
    (∀ source selector, parseSelector source = .ok selector →
      parseSelector selector.key = .ok selector) ∧
    ∀ selector : Selector, parseSelector selector.key = .ok selector ↔
      selector.terms ≠ [] ∧
        ∀ term ∈ selector.terms, Int32.minValue.toInt < term.magnitude.toInt := by
  refine ⟨fun source selector h => parseSelector_key (wellFormed_of_parseSelector h), ?_⟩
  intro selector
  constructor
  · intro h
    obtain ⟨hterms, hbounds⟩ := wellFormed_of_parseSelector h
    exact ⟨hterms, fun term hterm => (hbounds term hterm).1⟩
  · rintro ⟨hterms, hbounds⟩
    exact parseSelector_key ⟨hterms, fun term hterm => ⟨hbounds term hterm, term.magnitude.toInt_le⟩⟩

/-- A signed and a bare term, a number with zeros in front, a comment and a shorthand. -/
theorem keys_read_back_of_loose_text :
    let selector : Selector := ⟨[⟨.forward, -2147483647⟩, ⟨.right, 1⟩, ⟨.left, 7⟩, ⟨.down, 1⟩]⟩
    parseSelector " f-2147483647 + r /* on */ +L007_" = .ok selector ∧
      selector.key = "F-2147483647+R1+L7+D1" ∧
      parseSelector "F-2147483647+R1+L7+D1" = .ok selector := by
  intro selector
  have hread : parseSelector " f-2147483647 + r /* on */ +L007_" = .ok selector := by
    decide +kernel
  have hkey : selector.key = "F-2147483647+R1+L7+D1" := by decide +kernel
  refine ⟨hread, hkey, ?_⟩
  rw [← hkey]
  exact keys_read_back.1 _ selector hread

end BlockScript
