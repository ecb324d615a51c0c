import BlockScript.Text.Numeral

/-!
# Reading decimals

The leading digits of a numeral make a 64-bit significand; the digits that no longer fit only count
as powers of ten. The significand is scaled in binary64 by exact or nearly exact powers of ten, so the
result may be one unit off the nearest value. A number that would be infinite is refused.
-/
namespace BlockScript
set_option autoImplicit false

/-- A number as it is written; the fraction and the exponent may be missing. -/
structure Numeral where
  negative : Bool
  whole : List Char
  fraction : List Char
  exponent : Option (Bool × List Char)

namespace Numeral

def maxSignificand : Nat := UInt64.size - 1

/-- Takes digits while the significand fits, and counts those it leaves. -/
def takeWhole : Nat → List Char → Nat × Nat
  | significand, [] => (significand, 0)
  | significand, c :: digits =>
    let next := 10 * significand + Text.digitValue c
    if next ≤ maxSignificand then takeWhole next digits else (significand, digits.length + 1)

/-- Takes digits of the fraction while the significand fits, and counts those it takes. -/
def takeFraction : Nat → Nat → List Char → Nat × Nat
  | significand, taken, [] => (significand, taken)
  | significand, taken, c :: digits =>
    let next := 10 * significand + Text.digitValue c
    if next ≤ maxSignificand then takeFraction next (taken + 1) digits else (significand, taken)

def powerOfTen (n : Nat) : Float := Float.ofScientific 1 false n

/-- Divides by powers of ten until the exponent is used up; three steps bring any value to zero. -/
def scaleDown : Nat → Float → Nat → Float
  | 0, _, _ => 0.0
  | n + 1, x, exponent =>
    if exponent ≤ 308 then x / powerOfTen exponent
    else if x == 0.0 then x
    else scaleDown n (x / powerOfTen 308) (exponent - 308)

def scale? (x : Float) (exponent : Int) : Option Float :=
  if exponent < 0 then some (scaleDown 4 x (-exponent).toNat)
  else if exponent ≤ 308 then
    let scaled := x * powerOfTen exponent.toNat
    if scaled.isInf then none else some scaled
  else if x == 0.0 then some x
  else none

def sign (negative : Bool) (x : Float) : Float := if negative then -x else x

/-- The exponent with its sign, if it has 31 bits. -/
def exponentValue? (exponent : Option (Bool × List Char)) : Option Int :=
  match exponent with
  | none => some 0
  | some (negative, digits) =>
    let value : Int := Text.natOfDigits digits
    if Int32.maxValue.toInt < value then none else some (if negative then -value else value)

def toFloat? (n : Numeral) : Option Float :=
  let (significand, dropped) := takeWhole 0 n.whole
  let (significand, taken) := takeFraction significand 0 n.fraction
  match exponentValue? n.exponent, n.exponent with
  | some exponent, _ =>
    let scaled := scale? (UInt64.ofNat significand).toFloat ((dropped : Int) - taken + exponent)
    scaled.map (sign n.negative)
  | none, some (true, _) => some (sign n.negative 0.0)
  | none, _ => if significand = 0 then some (sign n.negative 0.0) else none

/-- The whole number that a numeral without fraction and exponent stands for, if it has 64 bits with
or without a sign; minus zero is no whole number. -/
def toInt? (n : Numeral) : Option Int :=
  if n.fraction.isEmpty && n.exponent.isNone then
    let value := Text.natOfDigits n.whole
    if n.negative then
      if value = 0 then none else (fit64 (-(value : Int))).map Int64.toInt
    else if value ≤ maxSignificand then some value
    else none
  else none

end Numeral

end BlockScript
