import BlockScript.Integer

/-!
# Block positions

A position and an offset are the same thing: three 32-bit coordinates. Sums come in two kinds, one
that refuses to leave the coordinate range and one that stops at its edge.
-/
namespace BlockScript
set_option autoImplicit false

structure Position where
  x : Int32
  y : Int32
  z : Int32
deriving DecidableEq, Inhabited

namespace Position

def zero : Position := ⟨0, 0, 0⟩

def up : Position := ⟨0, 1, 0⟩

def down : Position := ⟨0, -1, 0⟩

def add? (a b : Position) : Option Position := do
  let x ← fit32 (a.x.toInt + b.x.toInt)
  let y ← fit32 (a.y.toInt + b.y.toInt)
  let z ← fit32 (a.z.toInt + b.z.toInt)
  return ⟨x, y, z⟩

def scale? (a : Position) (k : Int32) : Option Position := do
  let x ← fit32 (a.x.toInt * k.toInt)
  let y ← fit32 (a.y.toInt * k.toInt)
  let z ← fit32 (a.z.toInt * k.toInt)
  return ⟨x, y, z⟩

/-- Stops at the edge of the coordinate range. -/
instance : Add Position where
  add a b := ⟨clamp32 (a.x.toInt + b.x.toInt), clamp32 (a.y.toInt + b.y.toInt),
    clamp32 (a.z.toInt + b.z.toInt)⟩

/-- Stops at the edge of the coordinate range. -/
instance : Neg Position where
  neg a := ⟨clamp32 (-a.x.toInt), clamp32 (-a.y.toInt), clamp32 (-a.z.toInt)⟩

/-- The squared distance in 64 bits. There is none if a difference, a product or a sum on the way
does not fit. -/
def distanceSq? (a b : Position) : Option Int64 := do
  let dx ← fit64 (a.x.toInt - b.x.toInt)
  let dy ← fit64 (a.y.toInt - b.y.toInt)
  let dz ← fit64 (a.z.toInt - b.z.toInt)
  let xx ← fit64 (dx.toInt * dx.toInt)
  let yy ← fit64 (dy.toInt * dy.toInt)
  let xy ← fit64 (xx.toInt + yy.toInt)
  let zz ← fit64 (dz.toInt * dz.toInt)
  fit64 (xy.toInt + zz.toInt)

/-- The order by x, then y, then z. -/
def order : Position → Position → Ordering :=
  compareLex (compareOn x) (compareLex (compareOn y) (compareOn z))

instance : Std.TransCmp order := inferInstanceAs (Std.TransCmp (compareLex _ _))

instance : Std.LawfulEqCmp order where
  eq_of_compare := by
    intro a b h
    obtain ⟨ax, ay, az⟩ := a
    obtain ⟨bx, by', bz⟩ := b
    simpa [order, compareLex_eq_eq, compareOn] using h

def render (p : Position) : String :=
  "(" ++ toString p.x.toInt ++ ", " ++ toString p.y.toInt ++ ", " ++ toString p.z.toInt ++ ")"

end Position

end BlockScript
