import BlockScript.Decimal.Shortest
import BlockScript.Json.Basic

/-!
# Writing JSON

A compact form without blanks and a form with two blanks for every level. A binary64 number has its
shortest digits and always a point or an exponent.
-/
namespace BlockScript.Json
set_option autoImplicit false

/-- Which exponents of the leading digit are written without an exponent mark. -/
structure NumberFormat where
  leastPlain : Int
  greatestPlain : Int

/-- Positional from `1e-5` up to, but not with, `1e+16`. -/
def numberFormat : NumberFormat := ⟨-5, 15⟩

def zeros (n : Nat) : String := String.ofList (List.replicate n '0')

/-- Digits with a point, for a number whose leading digit counts `10 ^ lead`. -/
def renderPlain (digits : List Char) (lead : Int) : String :=
  let length : Int := digits.length
  if length - 1 ≤ lead then
    String.ofList digits ++ zeros (lead - (length - 1)).toNat ++ ".0"
  else if 0 ≤ lead then
    let n := (lead + 1).toNat
    String.ofList (digits.take n) ++ "." ++ String.ofList (digits.drop n)
  else
    "0." ++ zeros (-lead - 1).toNat ++ String.ofList digits

def renderScientific (digits : List Char) (lead : Int) : String :=
  let mantissa := match digits with
    | first :: second :: rest => String.ofList [first] ++ "." ++ String.ofList (second :: rest)
    | short => String.ofList short
  let sign := if lead < 0 then "e-" else "e+"
  mantissa ++ sign ++ toString lead.natAbs

/-- A number that is not finite has no JSON form and is written as null. -/
def renderFloat (x : Float) : String :=
  match Binary64.ofFloat? x with
  | none => "null"
  | some b =>
    let magnitude :=
      if b.mantissa = 0 then "0.0"
      else
        let d := Decimal.shortest b.mantissa b.exponent
        let digits := Nat.toDigits 10 d.digits
        let lead := d.exponent + (digits.length - 1 : Nat)
        if numberFormat.leastPlain ≤ lead ∧ lead ≤ numberFormat.greatestPlain then
          renderPlain digits lead
        else renderScientific digits lead
    if b.negative then "-" ++ magnitude else magnitude

def hexDigit (n : Nat) : Char := (Nat.toDigits 16 n).headD '0'

def escapeChar (c : Char) : String :=
  if c = '\"' then "\\\""
  else if c = '\\' then "\\\\"
  else if c = '\x08' then "\\b"
  else if c = '\x0c' then "\\f"
  else if c = '\n' then "\\n"
  else if c = '\r' then "\\r"
  else if c = '\t' then "\\t"
  else if c.toNat < 0x20 then
    "\\u00" ++ String.ofList [hexDigit (c.toNat / 16), hexDigit (c.toNat % 16)]
  else c.toString

def renderString (s : String) : String :=
  "\"" ++ String.join (s.toList.map escapeChar) ++ "\""

def openBrace : String := "\x7b"

def closeBrace : String := "\x7d"

mutual

def render : Json → String
  | null => "null"
  | bool value => if value then "true" else "false"
  | int value => toString value
  | float value => renderFloat value
  | string value => renderString value
  | array items => "[" ++ String.intercalate "," (renderItems items) ++ "]"
  | object members => openBrace ++ String.intercalate "," (renderMembers members) ++ closeBrace
  | unread => "null"

def renderItems : List Json → List String
  | [] => []
  | item :: rest => render item :: renderItems rest

def renderMembers : List (String × Json) → List String
  | [] => []
  | (key, value) :: rest => (renderString key ++ ":" ++ render value) :: renderMembers rest

end

def indent (n : Nat) : String := String.ofList (List.replicate (2 * n) ' ')

/-- Parts on lines of their own between two brackets, which stand together when there are none. -/
def bracketed (opening closing : String) (level : Nat) (parts : List String) : String :=
  if parts.isEmpty then opening ++ closing
  else
    opening ++ "\n" ++ String.intercalate ",\n" (parts.map (indent (level + 1) ++ ·)) ++ "\n" ++
      indent level ++ closing

mutual

def renderPretty (level : Nat) : Json → String
  | null => "null"
  | bool value => if value then "true" else "false"
  | int value => toString value
  | float value => renderFloat value
  | string value => renderString value
  | array items => bracketed "[" "]" level (prettyItems (level + 1) items)
  | object members => bracketed openBrace closeBrace level (prettyMembers (level + 1) members)
  | unread => "null"

def prettyItems (level : Nat) : List Json → List String
  | [] => []
  | item :: rest => renderPretty level item :: prettyItems level rest

def prettyMembers (level : Nat) : List (String × Json) → List String
  | [] => []
  | (key, value) :: rest =>
    (renderString key ++ ": " ++ renderPretty level value) :: prettyMembers level rest

end

end BlockScript.Json
