import BlockScript.Text.Unprintable

/-!
# Quoted text

A text between double quotes in which every character can be seen: quotes, backslashes and the usual
controls have a short escape, and any other unprintable character stands as its code point in braces.
-/
namespace BlockScript.Text
set_option autoImplicit false

def hex (n : Nat) : String := String.ofList (Nat.toDigits 16 n)

def escapeChar (c : Char) : String :=
  if c = '\x00' then "\\0"
  else if c = '\t' then "\\t"
  else if c = '\r' then "\\r"
  else if c = '\n' then "\\n"
  else if c = '\\' then "\\\\"
  else if c = '\"' then "\\\""
  else if isUnprintable c then "\\u\x7b" ++ hex c.toNat ++ "\x7d"
  else c.toString

def quoted (s : String) : String :=
  "\"" ++ String.join (s.toList.map escapeChar) ++ "\""

end BlockScript.Text
