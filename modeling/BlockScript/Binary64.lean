/-!
# The exact value of a binary64 number

A finite number is a whole mantissa times a power of two, so comparisons and remainders of such
numbers can be made without rounding.
-/
namespace BlockScript
set_option autoImplicit false

/-- The value `± mantissa * 2 ^ exponent`. -/
structure Binary64 where
  negative : Bool
  mantissa : Nat
  exponent : Int

namespace Binary64

/-- The least mantissa of a number that is not subnormal; it has 53 bits. -/
def leastNormal : Nat := 0x10000000000000

/-- Nothing for an infinity or a value that is no number. -/
def ofFloat? (x : Float) : Option Binary64 :=
  let bits := x.toBits
  let negative := bits >>> 63 = 1
  let exponent := ((bits >>> 52) &&& 0x7ff).toNat
  let fraction := (bits &&& 0xfffffffffffff).toNat
  if exponent = 0x7ff then none
  else if exponent = 0 then some ⟨negative, fraction, -1074⟩
  else some ⟨negative, leastNormal + fraction, (exponent : Int) - 1075⟩

/-- Exact while the mantissa has at most 53 bits and the exponent is in range. -/
def toFloat (b : Binary64) : Float :=
  let magnitude := (UInt64.ofNat b.mantissa).toFloat.scaleB b.exponent
  if b.negative then -magnitude else magnitude

/-- What is left of `a` after taking away whole multiples of `b`, with the sign of `a`. -/
def remainder (a b : Binary64) : Binary64 :=
  let exponent := min a.exponent b.exponent
  let dividend := a.mantissa <<< (a.exponent - exponent).toNat
  let divisor := b.mantissa <<< (b.exponent - exponent).toNat
  ⟨a.negative, dividend % divisor, exponent⟩

end Binary64

end BlockScript
