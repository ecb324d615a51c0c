import BlockScript.Json.Printer
import BlockScript.Json.Reader
import BlockScript.Proofs.Token.Writing

/-!
# Reading what has been written

A value without binary64 numbers and unread parts is written as a text from which it is read back:
its whole numbers must have 64 bits, and its lists and objects may nest no deeper than they are read.
Members keep their order, so an object is read back member by member.
-/
namespace BlockScript.Json
set_option autoImplicit false

/-- A value that can be read back and whose lists and objects nest at most so deep. -/
inductive Legible : Nat → Json → Prop where
  | null {depth : Nat} : Legible depth null
  | bool {depth : Nat} (value : Bool) : Legible depth (bool value)
  | int {depth : Nat} {n : Int} (hlow : Int64.minValue.toInt ≤ n) (hhigh : n < UInt64.size) :
    Legible depth (int n)
  | string {depth : Nat} (value : String) : Legible depth (string value)
  | array {depth : Nat} {items : List Json} (hitems : ∀ item ∈ items, Legible depth item) :
    Legible (depth + 1) (array items)
  | object {depth : Nat} {members : List (String × Json)}
    (hmembers : ∀ entry ∈ members, Legible depth entry.2) :
    Legible (depth + 1) (object members)

/-- The characters of a value. -/
def chars (json : Json) : List Char := json.render.toList

/-- The characters of a member. -/
def entryChars (entry : String × Json) : List Char :=
  (renderString entry.1).toList ++ ':' :: entry.2.chars

namespace Reader

variable {α β : Type}

/-- What may follow a part of a list or an object. -/
def Ends (rest : List Char) : Prop := ∀ c ∈ rest.head?, c = ',' ∨ c = ']' ∨ c = '\x7d'

/-- The reader takes all of the text, and nothing of what may follow it. -/
def Takes (item : Reader α) (text : List Char) (a : α) : Prop :=
  ∀ rest, Ends rest → item (text ++ rest) = some (a, rest)

/-- The text begins with a mark that is no blank and closes nothing. -/
def Begins (closing : Char) (text : List Char) : Prop :=
  ∃ c cs, text = c :: cs ∧ isSpace c = false ∧ c ≠ closing

theorem skipSpace_of_begins {closing : Char} {text : List Char} (h : Begins closing text)
    (rest : List Char) : skipSpace (text ++ rest) = text ++ rest := by
  obtain ⟨c, cs, rfl, hspace, -⟩ := h
  exact List.dropWhile_cons_of_neg (Bool.eq_false_iff.1 hspace)

/-! ## Texts -/

theorem codes_short {c escaped : Char} (hc : c ≠ 'u') (h : shortEscape? c = some escaped)
    (rest : List Char) :
    codes ('\\' :: c :: rest) =
      (codes rest).map fun (others, rest) => (escaped.toNat :: others, rest) := by
  rw [codes, h]
  · cases codes rest <;> rfl
  · intro _ _ _ _ _ hu
    exact absurd hu hc

theorem codes_unit {a b c d : Char} {unit : Nat} (h : unit? a b c d = some unit)
    (rest : List Char) :
    codes ('\\' :: 'u' :: a :: b :: c :: d :: rest) =
      (codes rest).map fun (others, rest) => (unit :: others, rest) := by
  rw [codes, h]
  cases codes rest <;> rfl

theorem codes_plain {c : Char} (hquote : c ≠ '\"') (hslash : c ≠ '\\') (hc : ¬c.toNat < 0x20)
    (rest : List Char) :
    codes (c :: rest) = (codes rest).map fun (others, rest) => (c.toNat :: others, rest) := by
  rw [codes, if_neg (not_or.2 ⟨hc, hslash⟩)]
  · cases codes rest <;> rfl
  · exact hquote
  · intro _ _ _ _ _ hu
    exact absurd hu hslash
  · intro _ _ hu
    exact absurd hu hslash

theorem unit?_control : ∀ n < 0x20,
    unit? '0' '0' (hexDigit (n / 16)) (hexDigit (n % 16)) = some n := by
  decide

/-- A character is read back from the way it is written. -/
theorem codes_escapeChar (c : Char) (rest : List Char) :
    codes ((escapeChar c).toList ++ rest) =
      (codes rest).map fun (others, rest) => (c.toNat :: others, rest) := by
  unfold escapeChar
  split_ifs with hquote hslash hback hform hline hreturn htab hcontrol
  · exact hquote ▸ codes_short (by decide) rfl rest
  · exact hslash ▸ codes_short (by decide) rfl rest
  · exact hback ▸ codes_short (by decide) rfl rest
  · exact hform ▸ codes_short (by decide) rfl rest
  · exact hline ▸ codes_short (by decide) rfl rest
  · exact hreturn ▸ codes_short (by decide) rfl rest
  · exact htab ▸ codes_short (by decide) rfl rest
  · rw [String.toList_append, String.toList_ofList, String.toList_ofList]
    exact codes_unit (unit?_control c.toNat hcontrol) rest
  · rw [Char.toString, String.toList_singleton]
    exact codes_plain hquote hslash hcontrol rest

theorem not_surrogate (c : Char) : isHigh c.toNat = false ∧ isLow c.toNat = false := by
  have hvalid : c.toNat < 0xd800 ∨ 0xdfff < c.toNat ∧ c.toNat < 0x110000 := c.valid
  unfold isHigh isLow
  constructor
  · rw [Bool.and_eq_false_iff, decide_eq_false_iff_not, decide_eq_false_iff_not]
    omega
  · rw [Bool.and_eq_false_iff, decide_eq_false_iff_not, decide_eq_false_iff_not]
    omega

theorem characters?_toNat (cs : List Char) : characters? (cs.map Char.toNat) = some cs := by
  induction cs with
  | nil => rfl
  | cons c cs ih =>
    obtain ⟨hhigh, hlow⟩ := not_surrogate c
    cases cs with
    | nil =>
      change (if isHigh c.toNat || isLow c.toNat then none else some [Char.ofNat c.toNat]) = _
      rw [hhigh, hlow, Char.ofNat_toNat]
      rfl
    | cons d cs =>
      rw [List.map_cons] at ih
      rw [List.map_cons, List.map_cons, characters?, hhigh, hlow, if_neg Bool.false_ne_true,
        if_neg Bool.false_ne_true, ih, Char.ofNat_toNat]
      rfl

theorem codes_escaped (cs rest : List Char) :
    codes (cs.flatMap (fun c => (escapeChar c).toList) ++ '\"' :: rest) =
      some (cs.map Char.toNat, rest) := by
  induction cs with
  | nil => rfl
  | cons c cs ih =>
    rw [List.flatMap_cons, List.append_assoc, codes_escapeChar, ih]
    rfl

theorem toList_renderString (s : String) :
    (renderString s).toList =
      '\"' :: (s.toList.flatMap (fun c => (escapeChar c).toList) ++ ['\"']) := by
  unfold renderString
  rw [String.toList_append, String.toList_append, String.toList_join, List.flatMap_map]
  rfl

theorem isSpace_of_isDigit {c : Char} (h : Text.isDigit c = true) : isSpace c = false := by
  rw [Bool.eq_false_iff]
  intro hspace
  simp only [isSpace, Bool.or_eq_true, decide_eq_true_eq] at hspace
  rcases hspace with ((rfl | rfl) | rfl) | rfl <;> exact absurd h (by decide)

/-- A text is read back after its opening quote. -/
theorem stringRest_render (s : String) (rest : List Char) :
    stringRest ((renderString s).toList.tail ++ rest) = some (some s, rest) := by
  rw [toList_renderString, List.tail_cons, List.append_assoc]
  unfold stringRest
  rw [List.singleton_append, codes_escaped]
  change some ((characters? _).map String.ofList, rest) = _
  rw [characters?_toNat, Option.map_some, String.ofList_toList]

/-! ## Numbers -/

theorem head?_toDigits {n : Nat} (h : 0 < n) : (Nat.toDigits 10 n).head? ≠ some '0' := by
  induction n using Nat.strong_induction_on with
  | _ n ih =>
    by_cases hn : n < 10
    · have hdigit : ∀ m < 10, 0 < m → [Nat.digitChar m].head? ≠ some '0' := by decide
      rw [Nat.toDigits_of_lt_base hn]
      exact hdigit n hn h
    · have hfront := ih (n / 10) (by omega) (by omega)
      obtain ⟨c, cs, hcs⟩ :=
        List.exists_cons_of_ne_nil (Nat.toDigits_ne_nil : Nat.toDigits 10 (n / 10) ≠ [])
      rw [Nat.toDigits_of_base_le (by decide) (Nat.not_lt.1 hn), hcs]
      rw [hcs] at hfront
      exact hfront

theorem digits_append {front rest : List Char} (hfront : ∀ d ∈ front, Text.isDigit d = true)
    (hrest : Ends rest) : digits (front ++ rest) = (front, rest) := by
  unfold digits
  rw [List.takeWhile_append_of_pos hfront, List.dropWhile_append_of_pos hfront]
  cases rest with
  | nil => rw [List.takeWhile_nil, List.dropWhile_nil, List.append_nil]
  | cons c cs =>
    have hc : Text.isDigit c = false := by
      rcases hrest c rfl with rfl | rfl | rfl <;> decide
    rw [List.takeWhile_cons_of_neg (Bool.eq_false_iff.1 hc),
      List.dropWhile_cons_of_neg (Bool.eq_false_iff.1 hc), List.append_nil]

/-- The numeral of a whole number ends where the number does. -/
theorem numeral_toDigits (negative : Bool) (n : Nat) {rest : List Char} (hrest : Ends rest) :
    numeral negative (Nat.toDigits 10 n ++ rest) =
      some (⟨negative, Nat.toDigits 10 n, [], none⟩, rest) := by
  have hnumeral := Token.isNumeral_toDigits n
  have hzero : ¬((Nat.toDigits 10 n).isEmpty ∨
      ((Nat.toDigits 10 n).head? = some '0' ∧ (Nat.toDigits 10 n).length ≠ 1)) := by
    rintro (hempty | ⟨hhead, hlength⟩)
    · exact hnumeral.ne_nil (List.isEmpty_iff.1 hempty)
    · rcases Nat.eq_zero_or_pos n with rfl | hpos
      · exact hlength rfl
      · exact head?_toDigits hpos hhead
  have hfraction : fraction rest = some ([], rest) := by
    unfold fraction
    split
    · rcases hrest '.' rfl with h | h | h <;> cases h
    · rfl
  have hexponent : exponent rest = some (none, rest) := by
    cases rest with
    | nil => rfl
    | cons c cs =>
      unfold exponent
      dsimp only
      rw [if_neg]
      rintro (rfl | rfl)
      · rcases hrest 'e' rfl with h | h | h <;> cases h
      · rcases hrest 'E' rfl with h | h | h <;> cases h
  unfold numeral
  rw [digits_append hnumeral.all hrest]
  dsimp only
  rw [if_neg hzero, hfraction]
  dsimp only [bind, Option.bind]
  rw [hexponent]
  rfl

theorem toInt?_nonneg {n : Int} (hsign : 0 ≤ n) (hhigh : n < UInt64.size) :
    (⟨false, Nat.toDigits 10 n.toNat, [], none⟩ : Numeral).toInt? = some n := by
  have hvalue := Token.natOfDigits_toDigits n.toNat
  have hle : n.toNat ≤ Numeral.maxSignificand := by
    unfold Numeral.maxSignificand
    omega
  unfold Numeral.toInt?
  simp only [List.isEmpty_nil, Option.isNone_none, Bool.and_self, if_true, hvalue,
    Bool.false_eq_true, if_false, if_pos hle, Int.toNat_of_nonneg hsign]

theorem toInt?_neg {n : Int} (hsign : n < 0) (hlow : Int64.minValue.toInt ≤ n) :
    (⟨true, Nat.toDigits 10 n.natAbs, [], none⟩ : Numeral).toInt? = some n := by
  have hvalue := Token.natOfDigits_toDigits n.natAbs
  have hneg : -(n.natAbs : Int) = n := by omega
  have hnonzero : n.natAbs ≠ 0 := by omega
  have hmin : Int64.minValue.toInt = -2 ^ 63 := by decide
  have htoInt : (Int64.ofInt n).toInt = n := Int64.toInt_ofInt_of_le (by omega) (by omega)
  have hfit : (fit64 n).map Int64.toInt = some n := by
    rw [fit64_eq_some_iff.2 htoInt, Option.map_some, htoInt]
  unfold Numeral.toInt?
  simp only [List.isEmpty_nil, Option.isNone_none, Bool.and_self, if_true, hvalue,
    if_neg hnonzero, hneg, hfit]

/-- A whole number of 64 bits is read back. -/
theorem scalar_int {n : Int} (hlow : Int64.minValue.toInt ≤ n) (hhigh : n < UInt64.size) :
    Takes scalar (toString n).toList (.int n) := by
  intro rest hrest
  by_cases hsign : 0 ≤ n
  · have hnumber : number false (Nat.toDigits 10 n.toNat ++ rest) = some (.int n, rest) := by
      unfold number
      rw [numeral_toDigits false n.toNat hrest]
      dsimp only [bind, Option.bind, numberValue]
      rw [toInt?_nonneg hsign hhigh]
      rfl
    have hnumeral := Token.isNumeral_toDigits n.toNat
    rw [Token.toList_toString_of_nonneg hsign]
    obtain ⟨c, cs, hcs⟩ := List.exists_cons_of_ne_nil hnumeral.ne_nil
    have hc : Text.isDigit c = true := hnumeral.all c (by rw [hcs]; exact List.mem_cons_self)
    rw [hcs] at hnumber ⊢
    rw [← hnumber]
    -- A digit begins nothing but a number.
    have hother : ∀ d, Text.isDigit d = false → c ≠ d := by
      rintro d hd rfl
      rw [hc] at hd
      cases hd
    rw [List.cons_append, scalar, if_neg (hother 'n' (by decide)), if_neg (hother 't' (by decide)),
      if_neg (hother 'f' (by decide)), if_neg (hother '\"' (by decide)),
      if_neg (hother '-' (by decide))]
  · have hneg : n < 0 := Int.not_le.1 hsign
    rw [Token.toList_toString_of_neg hneg]
    change number true (Nat.toDigits 10 n.natAbs ++ rest) = _
    unfold number
    rw [numeral_toDigits true n.natAbs hrest]
    dsimp only [bind, Option.bind, numberValue]
    rw [toInt?_neg hneg hlow]
    rfl

/-! ## Lists and objects -/

/-- A mark that closes a list or an object. -/
def Closes (c : Char) : Prop := c = ']' ∨ c = '\x7d'

theorem Closes.isSpace {c : Char} (h : Closes c) : isSpace c = false := by
  rcases h with rfl | rfl <;> decide

theorem Closes.ne_comma {c : Char} (h : Closes c) : ',' ≠ c := by
  rcases h with rfl | rfl <;> decide

theorem Closes.ends {c : Char} (h : Closes c) (rest : List Char) : Ends (c :: rest) := by
  rintro d ⟨⟩
  exact .inr h

theorem ends_comma (rest : List Char) : Ends (',' :: rest) := by
  rintro d ⟨⟩
  exact .inl rfl

theorem skipSpace_cons {c : Char} (h : isSpace c = false) (rest : List Char) :
    skipSpace (c :: rest) = c :: rest :=
  List.dropWhile_cons_of_neg (Bool.eq_false_iff.1 h)

/-- Parts with commas between them are read one by one. -/
theorem items_takes {item : Reader α} {closing : Char} (hclosing : Closes closing)
    {text : β → List Char} {result : β → α} {parts : List β}
    (hparts : ∀ part ∈ parts, Takes item (text part) (result part) ∧ Begins closing (text part))
    (hne : parts ≠ []) {n : Nat} (hn : parts.length ≤ n) (rest : List Char) :
    items item closing n ([','].intercalate (parts.map text) ++ closing :: rest) =
      some (parts.map result, rest) := by
  induction parts generalizing n with
  | nil => exact absurd rfl hne
  | cons part more ih =>
    obtain ⟨⟨htakes, hbegins⟩, hmore⟩ := List.forall_mem_cons.1 hparts
    obtain ⟨n, rfl⟩ : ∃ m, n = m + 1 := ⟨n - 1, by rw [List.length_cons] at hn; omega⟩
    cases more with
    | nil =>
      rw [List.map_singleton, List.intercalate_singleton, items, skipSpace_of_begins hbegins,
        htakes _ (hclosing.ends rest)]
      dsimp only [bind, Option.bind]
      rw [skipSpace_cons hclosing.isSpace]
      exact if_pos rfl
    | cons next others =>
      have hothers := ih hmore nofun (Nat.le_of_succ_le_succ hn)
      rw [List.map_cons] at hothers
      rw [List.map_cons, List.map_cons, List.intercalate_cons_cons, List.append_assoc,
        List.append_assoc, List.singleton_append, items, skipSpace_of_begins hbegins,
        htakes _ (ends_comma _)]
      dsimp only [bind, Option.bind]
      rw [skipSpace_cons (by decide)]
      dsimp only
      rw [if_neg hclosing.ne_comma, if_pos rfl, hothers]
      rfl

theorem length_le_intercalate {text : List Char} {texts : List (List Char)} (h : text ∈ texts) :
    text.length ≤ ([','].intercalate texts).length := by
  induction texts with
  | nil => cases h
  | cons first rest ih =>
    cases rest with
    | nil =>
      rw [List.mem_singleton.1 h, List.intercalate_singleton]
    | cons next others =>
      rw [List.intercalate_cons_cons, List.length_append, List.length_append]
      rcases List.mem_cons.1 h with rfl | hrest
      · omega
      · have hle := ih hrest
        omega

theorem count_le_intercalate {texts : List (List Char)} (h : ∀ text ∈ texts, text ≠ []) :
    texts.length ≤ ([','].intercalate texts).length := by
  induction texts with
  | nil => exact Nat.le_refl _
  | cons first rest ih =>
    obtain ⟨hfirst, hrest⟩ := List.forall_mem_cons.1 h
    have hpos := List.length_pos_iff.2 hfirst
    cases rest with
    | nil =>
      rw [List.intercalate_singleton]
      exact hpos
    | cons next others =>
      have hle := ih hrest
      rw [List.intercalate_cons_cons, List.length_append, List.length_append, List.length_cons]
      omega

/-- All parts are read back, with as many steps as they have characters. -/
theorem enclosed_takes {item : Reader α} {closing : Char} (hclosing : Closes closing)
    {text : β → List Char} {result : β → α} {parts : List β}
    (hparts : ∀ part ∈ parts, Takes item (text part) (result part) ∧ Begins closing (text part))
    {n : Nat} (hn : ([','].intercalate (parts.map text)).length ≤ n) (rest : List Char) :
    enclosed item closing n ([','].intercalate (parts.map text) ++ closing :: rest) =
      some (parts.map result, rest) := by
  have hcount : parts.length ≤ n := by
    have hle : (parts.map text).length ≤ ([','].intercalate (parts.map text)).length := by
      refine count_le_intercalate fun _ htext => ?_
      obtain ⟨part, hpart, rfl⟩ := List.mem_map.1 htext
      obtain ⟨c, cs, hcs, -⟩ := (hparts part hpart).2
      exact hcs ▸ nofun
    rw [List.length_map] at hle
    exact hle.trans hn
  unfold enclosed
  cases parts with
  | nil =>
    rw [List.map_nil, List.intercalate_nil, List.nil_append, skipSpace_cons hclosing.isSpace]
    exact if_pos rfl
  | cons part more =>
    have hitems := items_takes hclosing hparts nofun hcount rest
    obtain ⟨c, cs, hpart, hspace, hopen⟩ := (hparts part List.mem_cons_self).2
    obtain ⟨cs', hfirst⟩ : ∃ cs', [','].intercalate ((part :: more).map text) = c :: cs' := by
      cases more with
      | nil => exact ⟨cs, by rw [List.map_singleton, List.intercalate_singleton, hpart]⟩
      | cons next others =>
        rw [List.map_cons, List.map_cons, List.intercalate_cons_cons, hpart]
        exact ⟨_, rfl⟩
    rw [hfirst, List.cons_append] at hitems ⊢
    rw [skipSpace_cons hspace]
    dsimp only
    rw [if_neg hopen, hitems]

/-- A member is read back if its value is. -/
theorem member_takes {item : Reader Json} {json : Json} (key : String)
    (htakes : Takes item json.chars json) (hbegins : Begins ']' json.chars) :
    Takes (member item) (entryChars (key, json)) (some key, json) := by
  intro rest hrest
  have hkey := stringRest_render key (':' :: (json.chars ++ rest))
  rw [toList_renderString, List.tail_cons] at hkey
  rw [entryChars, toList_renderString, List.append_assoc, List.cons_append, List.cons_append]
  simp only [member, hkey, skipSpace_cons (by decide : isSpace ':' = false),
    skipSpace_of_begins hbegins, htakes rest hrest, Option.bind_eq_bind, Option.bind_some,
    Option.pure_def]

theorem keyed?_some (members : List (String × Json)) :
    keyed? (members.map fun entry => (some entry.1, entry.2)) = some members := by
  induction members with
  | nil => rfl
  | cons entry rest ih =>
    rw [List.map_cons, keyed?, ih]
    rfl

end Reader

/-! ## Whole values -/

theorem renderItems_eq (items : List Json) : renderItems items = items.map render := by
  induction items with
  | nil => rfl
  | cons item rest ih => rw [renderItems, ih, List.map_cons]

theorem renderMembers_eq (members : List (String × Json)) :
    renderMembers members =
      members.map fun entry => renderString entry.1 ++ ":" ++ render entry.2 := by
  induction members with
  | nil => rfl
  | cons entry rest ih => rw [renderMembers, ih, List.map_cons]

theorem chars_array (items : List Json) :
    (array items).chars = '[' :: ([','].intercalate (items.map chars) ++ [']']) := by
  unfold chars
  rw [render, String.toList_append, String.toList_append, String.toList_intercalate,
    renderItems_eq, List.map_map]
  rfl

theorem chars_object (members : List (String × Json)) :
    (object members).chars =
      '\x7b' :: ([','].intercalate (members.map entryChars) ++ ['\x7d']) := by
  have hmember : (fun entry : String × Json =>
      (renderString entry.1 ++ ":" ++ render entry.2).toList) = entryChars := by
    funext entry
    rw [String.toList_append, String.toList_append, List.append_assoc]
    rfl
  unfold chars
  rw [render, String.toList_append, String.toList_append, String.toList_intercalate,
    renderMembers_eq, List.map_map, Function.comp_def, hmember]
  rfl

open Reader

/-- A whole number begins with a digit or a sign. -/
theorem chars_int (n : Int) :
    ∃ c cs, (int n).chars = c :: cs ∧ (Text.isDigit c = true ∨ c = '-') := by
  by_cases hsign : 0 ≤ n
  · have hnumeral := Token.isNumeral_toDigits n.toNat
    obtain ⟨c, cs, hcs⟩ := List.exists_cons_of_ne_nil hnumeral.ne_nil
    have hc : Text.isDigit c = true := hnumeral.all c (by rw [hcs]; exact List.mem_cons_self)
    exact ⟨c, cs, (Token.toList_toString_of_nonneg hsign).trans hcs, .inl hc⟩
  · exact ⟨'-', _, Token.toList_toString_of_neg (Int.not_le.1 hsign), .inr rfl⟩

/-- A value begins with a mark of its own. -/
theorem begins_chars {depth : Nat} {json : Json} (h : json.Legible depth) :
    Begins ']' json.chars := by
  cases h with
  | null => exact ⟨_, _, rfl, by decide, by decide⟩
  | bool value => cases value <;> exact ⟨_, _, rfl, by decide, by decide⟩
  | string value => exact ⟨_, _, toList_renderString value, by decide, by decide⟩
  | array hitems => exact ⟨_, _, chars_array _, by decide, by decide⟩
  | object hmembers => exact ⟨_, _, chars_object _, by decide, by decide⟩
  | @int _ n hlow hhigh =>
    obtain ⟨c, cs, hcs, hdigit | rfl⟩ := chars_int n
    · refine ⟨c, cs, hcs, isSpace_of_isDigit hdigit, ?_⟩
      rintro rfl
      exact absurd hdigit (by decide)
    · exact ⟨'-', cs, hcs, by decide, by decide⟩

theorem value_scalar {c : Char} (hlist : c ≠ '[') (hobject : c ≠ '\x7b') (n depth : Nat)
    (cs : List Char) : value (n + 1) depth (c :: cs) = scalar (c :: cs) := by
  rw [value]
  · exact fun _ h => hlist (List.cons.inj h).1
  · exact fun _ h => hobject (List.cons.inj h).1

/-- Every value is read back from its text, with as many steps as the text has characters. -/
theorem value_takes {depth : Nat} {json : Json} (h : json.Legible depth) {n : Nat}
    (hn : json.chars.length ≤ n + 1) : Takes (value (n + 1) depth) json.chars json := by
  induction h generalizing n with
  | null =>
    intro rest _
    exact value_scalar (by decide) (by decide) ..
  | bool value =>
    intro rest _
    cases value <;> exact value_scalar (by decide) (by decide) ..
  | string value =>
    intro rest _
    have hread := stringRest_render value rest
    rw [toList_renderString, List.tail_cons] at hread
    change Reader.value (n + 1) _ ((renderString value).toList ++ rest) = _
    rw [toList_renderString, List.cons_append, value_scalar (by decide) (by decide), scalar,
      if_neg (by decide), if_neg (by decide), if_neg (by decide), if_pos rfl, hread]
    rfl
  | @int _ m hlow hhigh =>
    intro rest hrest
    have hscalar := scalar_int hlow hhigh rest hrest
    obtain ⟨c, cs, hcs, hmark⟩ := chars_int m
    rw [show (toString m).toList = c :: cs from hcs] at hscalar
    rw [hcs, List.cons_append, value_scalar]
    · exact hscalar
    · rintro rfl
      exact absurd hmark (by decide)
    · rintro rfl
      exact absurd hmark (by decide)
  | @array depth items hitems ih =>
    intro rest _
    rw [chars_array, List.length_cons, List.length_append, List.length_singleton] at hn
    obtain ⟨k, rfl⟩ : ∃ k, n = k + 1 := ⟨n - 1, by omega⟩
    have hparts : ∀ item ∈ items, Takes (value (k + 1) depth) item.chars item ∧
        Begins ']' item.chars := by
      intro item hitem
      have hle : item.chars.length ≤ _ := length_le_intercalate (List.mem_map_of_mem hitem)
      exact ⟨ih item hitem (by omega), begins_chars (hitems item hitem)⟩
    have hread := enclosed_takes (.inl rfl) hparts (by omega : _ ≤ k + 1) rest
    rw [chars_array, List.cons_append, List.append_assoc, List.singleton_append, value]
    rw [Nat.add_sub_cancel, hread, List.map_id']
    rfl
  | @object depth members hmembers ih =>
    intro rest _
    rw [chars_object, List.length_cons, List.length_append, List.length_singleton] at hn
    obtain ⟨k, rfl⟩ : ∃ k, n = k + 1 := ⟨n - 1, by omega⟩
    have hparts : ∀ entry ∈ members,
        Takes (member (value (k + 1) depth)) (entryChars entry) (some entry.1, entry.2) ∧
          Begins '\x7d' (entryChars entry) := by
      intro entry hentry
      have hle : (entryChars entry).length ≤ _ :=
        length_le_intercalate (List.mem_map_of_mem hentry)
      rw [entryChars, List.length_append, List.length_cons] at hle
      have hvalue := ih entry hentry (by omega : entry.2.chars.length ≤ k + 1)
      refine ⟨member_takes entry.1 hvalue (begins_chars (hmembers entry hentry)), ?_⟩
      rw [entryChars, toList_renderString]
      exact ⟨_, _, rfl, by decide, by decide⟩
    have hread := enclosed_takes (.inr rfl) hparts (by omega : _ ≤ k + 1) rest
    rw [chars_object, List.cons_append, List.append_assoc, List.singleton_append, value,
      Nat.add_sub_cancel, hread, Option.map_some]
    dsimp only [objectValue]
    rw [if_neg (Nat.succ_ne_zero depth), keyed?_some]
    rfl

/-- What has been written is read back. -/
theorem skim_render {json : Json} (h : json.Legible maxDepth) : skim json.render = some json := by
  obtain ⟨c, cs, hcs, hspace, -⟩ := begins_chars h
  have hlength : json.render.length = cs.length + 1 := by
    rw [← String.length_toList]
    exact congrArg List.length hcs
  have htakes := value_takes h (n := cs.length) (by rw [hcs]; exact Nat.le_refl _) [] nofun
  rw [List.append_nil] at htakes
  unfold skim
  rw [hlength, show json.render.toList = c :: cs from hcs, skipSpace_cons hspace, ← hcs, htakes]
  rfl

end BlockScript.Json
