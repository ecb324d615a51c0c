import BlockScript.Decimal.Reading
import BlockScript.Json.Basic

/-!
# Reading JSON

A reader takes characters from the front of a list or refuses. It refuses what is badly written only:
a part that is well written but has no value is left unread. Arrays and objects have values down to a
fixed depth. Reading counts down the characters that are left.
-/
namespace BlockScript.Json
set_option autoImplicit false

abbrev Reader (α : Type) := List Char → Option (α × List Char)

namespace Reader

def maxDepth : Nat := 127

def isSpace (c : Char) : Bool := c = ' ' || c = '\n' || c = '\t' || c = '\r'

def skipSpace (cs : List Char) : List Char := cs.dropWhile isSpace

def hexValue? (c : Char) : Option Nat :=
  if '0' ≤ c ∧ c ≤ '9' then some (c.toNat - '0'.toNat)
  else if 'a' ≤ c ∧ c ≤ 'f' then some (c.toNat - 'a'.toNat + 10)
  else if 'A' ≤ c ∧ c ≤ 'F' then some (c.toNat - 'A'.toNat + 10)
  else none

def unit? (a b c d : Char) : Option Nat := do
  return 4096 * (← hexValue? a) + 256 * (← hexValue? b) + 16 * (← hexValue? c) + (← hexValue? d)

def isHigh (unit : Nat) : Bool := 0xd800 ≤ unit && unit < 0xdc00

def isLow (unit : Nat) : Bool := 0xdc00 ≤ unit && unit < 0xe000

/-- What a backslash followed by `c` stands for, other than a code unit. -/
def shortEscape? (c : Char) : Option Char :=
  if c = '\"' ∨ c = '\\' ∨ c = '/' then some c
  else if c = 'b' then some '\x08'
  else if c = 'f' then some '\x0c'
  else if c = 'n' then some '\n'
  else if c = 'r' then some '\r'
  else if c = 't' then some '\t'
  else none

/-- The code points and escaped code units of a string after its opening quote. -/
def codes : Reader (List Nat)
  | [] => none
  | '\"' :: rest => some ([], rest)
  | '\\' :: 'u' :: a :: b :: c :: d :: rest => do
    let unit ← unit? a b c d
    let (others, rest) ← codes rest
    return (unit :: others, rest)
  | '\\' :: c :: rest => do
    let escaped ← shortEscape? c
    let (others, rest) ← codes rest
    return (escaped.toNat :: others, rest)
  | c :: rest => do
    if c.toNat < 0x20 ∨ c = '\\' then none
    else
      let (others, rest) ← codes rest
      return (c.toNat :: others, rest)

/-- The characters of codes. A surrogate must come in a pair. -/
def characters? : List Nat → Option (List Char)
  | [] => some []
  | [code] => if isHigh code || isLow code then none else some [Char.ofNat code]
  | first :: second :: rest =>
    if isHigh first then
      if isLow second then
        (characters? rest).map
          (Char.ofNat (0x10000 + 1024 * (first - 0xd800) + (second - 0xdc00)) :: ·)
      else none
    else if isLow first then none
    else (characters? (second :: rest)).map (Char.ofNat first :: ·)

/-- A string after its opening quote, if its codes are characters. -/
def stringRest : Reader (Option String) := fun cs => do
  let (list, rest) ← codes cs
  return ((characters? list).map String.ofList, rest)

def digits (cs : List Char) : List Char × List Char :=
  (cs.takeWhile Text.isDigit, cs.dropWhile Text.isDigit)

def fraction : Reader (List Char)
  | '.' :: cs => if (digits cs).1.isEmpty then none else some (digits cs)
  | cs => some ([], cs)

def exponentDigits (negative : Bool) (cs : List Char) : Option (Option (Bool × List Char) × List Char) :=
  if (digits cs).1.isEmpty then none else some (some (negative, (digits cs).1), (digits cs).2)

def exponent : Reader (Option (Bool × List Char))
  | c :: cs =>
    if c = 'e' ∨ c = 'E' then
      match cs with
      | '-' :: rest => exponentDigits true rest
      | '+' :: rest => exponentDigits false rest
      | rest => exponentDigits false rest
    else some (none, c :: cs)
  | [] => some (none, [])

/-- A numeral has no leading zeros but may be a lone zero. -/
def numeral (negative : Bool) : Reader Numeral := fun cs => do
  let (whole, rest) := digits cs
  if whole.isEmpty ∨ (whole.head? = some '0' ∧ whole.length ≠ 1) then none
  else
    let (fraction, rest) ← fraction rest
    let (exponent, rest) ← exponent rest
    return (⟨negative, whole, fraction, exponent⟩, rest)

/-- The value of a numeral, unless it is too large. -/
def numberValue (n : Numeral) : Json :=
  match n.toInt? with
  | some value => .int value
  | none =>
    match n.toFloat? with
    | some value => .float value
    | none => .unread

def number (negative : Bool) : Reader Json := fun cs => do
  let (n, rest) ← numeral negative cs
  return (numberValue n, rest)

/-- Items with commas between them, up to and with the closing character. -/
def items {α : Type} (item : Reader α) (closing : Char) : Nat → Reader (List α)
  | 0, _ => none
  | n + 1, cs => do
    let (first, rest) ← item (skipSpace cs)
    match skipSpace rest with
    | [] => none
    | c :: rest =>
      if c = closing then return ([first], rest)
      else if c = ',' then
        let (others, rest) ← items item closing n rest
        return (first :: others, rest)
      else none

/-- No items, or some. -/
def enclosed {α : Type} (item : Reader α) (closing : Char) (n : Nat) : Reader (List α) := fun cs =>
  match skipSpace cs with
  | [] => none
  | c :: rest => if c = closing then some ([], rest) else items item closing n (c :: rest)

def member (value : Reader Json) : Reader (Option String × Json) := fun cs => do
  match cs with
  | '\"' :: rest =>
    let (key, rest) ← stringRest rest
    match skipSpace rest with
    | ':' :: rest =>
      let (v, rest) ← value (skipSpace rest)
      return ((key, v), rest)
    | _ => none
  | _ => none

def scalar (cs : List Char) : Option (Json × List Char) :=
  match cs with
  | [] => none
  | c :: rest =>
    if c = 'n' then (['u', 'l', 'l'].isPrefixOf? rest).map fun rest => (.null, rest)
    else if c = 't' then (['r', 'u', 'e'].isPrefixOf? rest).map fun rest => (.bool true, rest)
    else if c = 'f' then (['a', 'l', 's', 'e'].isPrefixOf? rest).map fun rest => (.bool false, rest)
    else if c = '\"' then
      (stringRest rest).map fun (text, rest) => (text.elim .unread .string, rest)
    else if c = '-' then number true rest
    else number false (c :: rest)

def arrayValue (depth : Nat) (items : List Json) : Json :=
  if depth = 0 then .unread else .array items

/-- Each key of an object must be a string. -/
def keyed? : List (Option String × Json) → Option (List (String × Json))
  | [] => some []
  | (key, value) :: rest => do
    let key ← key
    return (key, value) :: (← keyed? rest)

def objectValue (depth : Nat) (members : List (Option String × Json)) : Json :=
  if depth = 0 then .unread else (keyed? members).elim .unread .object

/-- A value in at most `n` characters, of which `depth` levels are read. -/
def value : Nat → Nat → Reader Json
  | 0, _, _ => none
  | n + 1, depth, cs =>
    match cs with
    | '[' :: rest =>
      (enclosed (value n (depth - 1)) ']' n rest).map fun (list, rest) =>
        (arrayValue depth list, rest)
    | '\x7b' :: rest =>
      (enclosed (member (value n (depth - 1))) '\x7d' n rest).map fun (list, rest) =>
        (objectValue depth list, rest)
    | _ => scalar cs

end Reader

/-- The value of a text that holds one value and blanks around it, with the parts that have no value
left unread. -/
def skim (text : String) : Option Json :=
  match Reader.value text.length Reader.maxDepth (Reader.skipSpace text.toList) with
  | none => none
  | some (value, rest) => if (Reader.skipSpace rest).isEmpty then some value else none

/-- The value of a text that is read in full. -/
def parse (text : String) : Option Json := (skim text).bind whole?

end BlockScript.Json
