import BlockScript.Space.Position
import Mathlib.Algebra.Order.Ring.Int

/-!
# Squared distances

A squared distance is taken in 64-bit words. Coordinates differ by up to `2^32 - 1`, so the square
of one difference may already be too great for a word with a sign. Below `2^63` no difference,
product or sum on the way leaves the range, and the word is the squared distance. From there on there
is none.
-/
namespace BlockScript
set_option autoImplicit false

theorem exists_toInt64 {n : Int} (hmin : Int64.minValue.toInt ≤ n)
    (hmax : n ≤ Int64.maxValue.toInt) : ∃ w : Int64, w.toInt = n :=
  ⟨Int64.ofInt n, fit64_eq_some_iff.1 (if_pos ⟨hmin, hmax⟩)⟩

namespace Position

/-- The squared distance as a whole number of any size. -/
def exactDistanceSq (a b : Position) : Int :=
  (a.x.toInt - b.x.toInt) * (a.x.toInt - b.x.toInt) +
    (a.y.toInt - b.y.toInt) * (a.y.toInt - b.y.toInt) +
    (a.z.toInt - b.z.toInt) * (a.z.toInt - b.z.toInt)

theorem exactDistanceSq_nonneg (a b : Position) : 0 ≤ a.exactDistanceSq b := by
  have hx := mul_self_nonneg (a.x.toInt - b.x.toInt)
  have hy := mul_self_nonneg (a.y.toInt - b.y.toInt)
  have hz := mul_self_nonneg (a.z.toInt - b.z.toInt)
  unfold exactDistanceSq
  omega

/-- A difference of coordinates has 33 bits. -/
theorem exists_sub (m n : Int32) : ∃ d : Int64, d.toInt = m.toInt - n.toInt := by
  have hm := m.minValue_le_toInt
  have hm' := m.toInt_le
  have hn := n.minValue_le_toInt
  have hn' := n.toInt_le
  simp only [Int32.toInt_minValue, Int32.toInt_maxValue] at hm hm' hn hn'
  exact exists_toInt64 (by simp only [Int64.toInt_minValue]; omega)
    (by simp only [Int64.toInt_maxValue]; omega)

/-- Nothing on the way to the squared distance leaves the range unless the squared distance does: no
square is negative, so no product and no sum is greater than the last. -/
theorem distanceSq?_eq_some_iff {a b : Position} {d : Int64} :
    a.distanceSq? b = some d ↔ d.toInt = a.exactDistanceSq b := by
  simp only [distanceSq?, exactDistanceSq, Option.bind_eq_bind, Option.bind_eq_some_iff,
    fit64_eq_some_iff]
  constructor
  · rintro ⟨dx, hdx, dy, hdy, dz, hdz, xx, hxx, yy, hyy, xy, hxy, zz, hzz, h⟩
    rw [h, hxy, hxx, hyy, hzz, hdx, hdy, hdz]
  · intro h
    obtain ⟨dx, hdx⟩ := exists_sub a.x b.x
    obtain ⟨dy, hdy⟩ := exists_sub a.y b.y
    obtain ⟨dz, hdz⟩ := exists_sub a.z b.z
    rw [← hdx, ← hdy, ← hdz] at h
    have hx := mul_self_nonneg dx.toInt
    have hy := mul_self_nonneg dy.toInt
    have hz := mul_self_nonneg dz.toInt
    have hmin : Int64.minValue.toInt ≤ 0 := by decide
    have hmax := d.toInt_le
    obtain ⟨xx, hxx⟩ := exists_toInt64 (n := dx.toInt * dx.toInt) (by omega) (by omega)
    obtain ⟨yy, hyy⟩ := exists_toInt64 (n := dy.toInt * dy.toInt) (by omega) (by omega)
    obtain ⟨xy, hxy⟩ := exists_toInt64 (n := xx.toInt + yy.toInt) (by omega) (by omega)
    obtain ⟨zz, hzz⟩ := exists_toInt64 (n := dz.toInt * dz.toInt) (by omega) (by omega)
    exact ⟨dx, hdx, dy, hdy, dz, hdz, xx, hxx, yy, hyy, xy, hxy, zz, hzz, by omega⟩

/-- The squared distance has a word exactly if it is below `2^63`. -/
theorem distanceSq?_eq_none_iff {a b : Position} :
    a.distanceSq? b = none ↔ Int64.maxValue.toInt < a.exactDistanceSq b := by
  rw [Option.eq_none_iff_forall_ne_some]
  constructor
  · intro h
    by_contra hle
    have hmin : Int64.minValue.toInt ≤ a.exactDistanceSq b :=
      le_trans (by decide) (exactDistanceSq_nonneg a b)
    obtain ⟨w, hw⟩ := exists_toInt64 hmin (not_lt.1 hle)
    exact h w (distanceSq?_eq_some_iff.2 hw)
  · intro h d hd
    have hmax := d.toInt_le
    rw [distanceSq?_eq_some_iff.1 hd] at hmax
    exact absurd h (not_lt.2 hmax)

end Position

end BlockScript
