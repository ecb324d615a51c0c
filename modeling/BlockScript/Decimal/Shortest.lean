import BlockScript.Binary64

/-!
# Shortest decimals

The numbers that round to a binary64 value form an interval around it, with its ends if the mantissa
is even. The shortest decimal of the value is the one of fewest digits in that interval and, among
those, the nearest; of two equally near the even one. All comparisons are made on whole numbers.
-/
namespace BlockScript
set_option autoImplicit false

/-- The value `digits * 10 ^ exponent`. -/
structure Decimal where
  digits : Nat
  exponent : Int
deriving DecidableEq, Inhabited

namespace Decimal

/-- A fraction of two whole numbers; the denominator is not zero. -/
structure Ratio where
  num : Nat
  den : Nat

namespace Ratio

def ofPower (base : Nat) (coefficient : Nat) (exponent : Int) : Ratio :=
  ⟨coefficient * Nat.pow base exponent.toNat, Nat.pow base (-exponent).toNat⟩

def lt (a b : Ratio) : Bool := a.num * b.den < b.num * a.den

def le (a b : Ratio) : Bool := a.num * b.den ≤ b.num * a.den

/-- Distance from `a` to `b`. -/
def distance (a b : Ratio) : Ratio :=
  let x := a.num * b.den
  let y := b.num * a.den
  ⟨(x - y) + (y - x), a.den * b.den⟩

end Ratio

/-- The numbers that round to `mantissa * 2 ^ exponent`. -/
structure Interval where
  lower : Ratio
  upper : Ratio
  closed : Bool

namespace Interval

/-- Just above a power of two the gap below is half the gap above. -/
def around (mantissa : Nat) (exponent : Int) : Interval :=
  let below := if mantissa = Binary64.leastNormal ∧ exponent > -1074 then 1 else 2
  { lower := Ratio.ofPower 2 (4 * mantissa - below) (exponent - 2)
    upper := Ratio.ofPower 2 (4 * mantissa + 2) (exponent - 2)
    closed := mantissa % 2 = 0 }

def contains (i : Interval) (x : Ratio) : Bool :=
  if i.closed then i.lower.le x && x.le i.upper else i.lower.lt x && x.lt i.upper

end Interval

/-- One step of the search for the power of ten just below a value. -/
def adjustLog (value : Ratio) (estimate : Int) : Int :=
  if value.lt (Ratio.ofPower 10 1 estimate) then estimate - 1
  else if (Ratio.ofPower 10 1 (estimate + 1)).le value then estimate + 1
  else estimate

/-- The exponent of the leading decimal digit. -/
def leadingExponent (value : Ratio) : Int :=
  let bits : Int := (Nat.log2 value.num : Int) - (Nat.log2 value.den : Int)
  adjustLog value (adjustLog value (adjustLog value (bits * 30103 / 100000)))

/-- The better of the two neighbours of a value on the grid of multiples of `10 ^ exponent`. -/
def onGrid? (value : Ratio) (interval : Interval) (exponent : Int) : Option Decimal :=
  let unit := Ratio.ofPower 10 1 exponent
  let low := value.num * unit.den / (value.den * unit.num)
  let point (n : Nat) : Ratio := Ratio.ofPower 10 n exponent
  let below := (value.distance (point low)).le (value.distance (point (low + 1)))
  let above := (value.distance (point (low + 1))).le (value.distance (point low))
  match interval.contains (point low), interval.contains (point (low + 1)) with
  | false, false => none
  | true, false => some ⟨low, exponent⟩
  | false, true => some ⟨low + 1, exponent⟩
  | true, true =>
    if below && (!above || low % 2 = 0) then some ⟨low, exponent⟩ else some ⟨low + 1, exponent⟩

/-- The same value without zeros at the end of its digits. -/
def strip : Nat → Decimal → Decimal
  | 0, d => d
  | n + 1, d => if d.digits ≠ 0 ∧ d.digits % 10 = 0 then strip n ⟨d.digits / 10, d.exponent + 1⟩ else d

/-- Seventeen digits always suffice. -/
def shortest (mantissa : Nat) (exponent : Int) : Decimal :=
  let value := Ratio.ofPower 2 mantissa exponent
  let lead := leadingExponent value
  let found := (List.range 17).findSome? fun (n : Nat) =>
    onGrid? value (Interval.around mantissa exponent) (lead - (n : Int))
  strip 17 (found.getD ⟨mantissa, 0⟩)

end Decimal

end BlockScript
