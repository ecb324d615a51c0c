import BlockScript.Integer

/-!
# Decimal numerals

Digits are the ten ASCII ones. A numeral is read by its value, so leading zeros do not matter.
-/
namespace BlockScript.Text
set_option autoImplicit false

def isDigit (c : Char) : Bool := '0' ≤ c && c ≤ '9'

def digitValue (c : Char) : Nat := c.toNat - '0'.toNat

def natOfDigits (digits : List Char) : Nat :=
  digits.foldl (fun n c => 10 * n + digitValue c) 0

/-- An optional sign and at least one digit, with a value of 64 bits. -/
def readInt64 (cs : List Char) : Option Int64 :=
  match cs with
  | '-' :: digits => if accepts digits then fit64 (-(natOfDigits digits : Int)) else none
  | '+' :: digits => if accepts digits then fit64 (natOfDigits digits) else none
  | digits => if accepts digits then fit64 (natOfDigits digits) else none
where
  accepts (digits : List Char) : Bool := !digits.isEmpty && digits.all isDigit

end BlockScript.Text
