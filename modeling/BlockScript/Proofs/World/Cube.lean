import BlockScript.World.Probe
import Mathlib.Algebra.Order.Group.Abs
import Mathlib.Algebra.Order.Ring.Int
import Mathlib.Data.List.Basic

/-!
# What a search walks over

A search goes through the offsets of a cube and stops at the edge of the coordinate range, so near
the edge it comes by the same position more than once. The positions that it visits are those of the
cube that exist, and it visits each of them for the first time after all that precede it by x, then
y, then z. A radius of `2^31` has no opposite, and a greater one is read as a negative number and
leaves nothing to visit.
-/
namespace BlockScript
set_option autoImplicit false

/-- The nearest number in the coordinate range. -/
theorem toInt_clamp32 (n : Int) :
    (clamp32 n).toInt = max Int32.minValue.toInt (min n Int32.maxValue.toInt) := by
  have hmin : Int32.minValue.toInt ≤ Int32.maxValue.toInt := by decide
  refine Int32.toInt_ofInt_of_le ?_ ?_
  · exact le_max_left Int32.minValue.toInt _
  · exact lt_of_le_of_lt (max_le hmin (min_le_right _ _)) (by decide)

namespace Position

/-- No coordinate is further from the origin than the radius. -/
def Within (origin : Position) (radius : UInt32) (p : Position) : Prop :=
  |p.x.toInt - origin.x.toInt| ≤ radius.toNat ∧ |p.y.toInt - origin.y.toInt| ≤ radius.toNat ∧
    |p.z.toInt - origin.z.toInt| ≤ radius.toNat

theorem Within.mono {origin p : Position} {r s : UInt32} (hle : r ≤ s) (h : Within origin r p) :
    Within origin s p := by
  have hcast : (r.toNat : Int) ≤ s.toNat := Int.ofNat_le.2 (UInt32.le_iff_toNat_le.1 hle)
  exact ⟨h.1.trans hcast, h.2.1.trans hcast, h.2.2.trans hcast⟩

/-- The order by x, then y, then z. -/
def Precedes (p q : Position) : Prop :=
  p.x < q.x ∨ p.x = q.x ∧ (p.y < q.y ∨ p.y = q.y ∧ p.z < q.z)

theorem not_precedes_self (p : Position) : ¬ Precedes p p := by
  simp [Precedes, Int32.lt_irrefl]

theorem precedes_or_eq {p q : Position} (h : ¬ Precedes q p) : p = q ∨ Precedes p q := by
  obtain ⟨px, py, pz⟩ := p
  obtain ⟨qx, qy, qz⟩ := q
  simp only [Precedes, mk.injEq, Int32.lt_iff_toInt_lt, ← Int32.toInt_inj] at h ⊢
  omega

end Position

namespace Search

/-! ## Positions visited -/

theorem toInt_toInt32 (radius : UInt32) :
    radius.toInt32.toInt = (radius.toNat : Int).bmod (2 ^ 32) :=
  BitVec.toInt_eq_toNat_bmod radius.toBitVec

/-- The offsets of a radius that a signed number can hold. -/
def offsets (radius : UInt32) : List Int32 :=
  (List.range (2 * radius.toNat + 1)).map fun (i : Nat) => Int32.ofInt (-(radius.toNat : Int) + i)

theorem offsets?_of_lt {radius : UInt32} (h : radius.toNat < 2 ^ 31) :
    offsets? radius = some (offsets radius) := by
  have hr : radius.toInt32.toInt = radius.toNat := by
    rw [toInt_toInt32]
    exact Int.bmod_eq_of_le (by omega) (by omega)
  have hleast : (Int32.ofInt (-(radius.toNat : Int))).toInt = -(radius.toNat : Int) :=
    Int32.toInt_ofInt_of_le (by omega) (by omega)
  have hfits : fit32 (-(radius.toNat : Int)) = some (Int32.ofInt (-(radius.toNat : Int))) :=
    fit32_eq_some_iff.2 hleast
  have hcount :
      ((radius.toNat : Int) - -(radius.toNat : Int) + 1).toNat = 2 * radius.toNat + 1 := by
    omega
  simp only [offsets?, between, hr, hfits, hleast, hcount, Option.bind_eq_bind, Option.bind_some,
    Option.pure_def, offsets]

/-- The least signed number has no opposite. -/
theorem offsets?_of_eq {radius : UInt32} (h : radius.toNat = 2 ^ 31) : offsets? radius = none := by
  obtain rfl : radius = 2147483648 := UInt32.toNat_inj.1 h
  decide

/-- Read as a signed number, a radius of more than `2^31` is less than its own opposite. -/
theorem offsets?_of_gt {radius : UInt32} (h : 2 ^ 31 < radius.toNat) :
    offsets? radius = some [] := by
  have hlt := radius.toNat_lt
  have hr : radius.toInt32.toInt = radius.toNat - 2 ^ 32 := by
    rw [toInt_toInt32, Int.bmod_def]
    omega
  have hleast : (Int32.ofInt (-((radius.toNat : Int) - 2 ^ 32))).toInt =
      -((radius.toNat : Int) - 2 ^ 32) :=
    Int32.toInt_ofInt_of_le (by omega) (by omega)
  have hfits : fit32 (-((radius.toNat : Int) - 2 ^ 32)) =
      some (Int32.ofInt (-((radius.toNat : Int) - 2 ^ 32))) := fit32_eq_some_iff.2 hleast
  have hcount :
      ((radius.toNat : Int) - 2 ^ 32 - -((radius.toNat : Int) - 2 ^ 32) + 1).toNat = 0 := by
    omega
  simp only [offsets?, between, hr, hfits, hleast, hcount, Option.bind_eq_bind, Option.bind_some,
    Option.pure_def, List.range_zero, List.map_nil]

theorem toInt_offset {n i : Nat} (hn : n < 2 ^ 31) (hi : i < 2 * n + 1) :
    (Int32.ofInt (-(n : Int) + i)).toInt = -(n : Int) + i :=
  Int32.toInt_ofInt_of_le (by omega) (by omega)

theorem mem_offsets {radius : UInt32} (h : radius.toNat < 2 ^ 31) {d : Int32} :
    d ∈ offsets radius ↔ |d.toInt| ≤ radius.toNat := by
  rw [offsets, List.mem_map, abs_le]
  constructor
  · rintro ⟨i, hi, rfl⟩
    rw [List.mem_range] at hi
    rw [toInt_offset h hi]
    omega
  · intro hd
    refine ⟨(d.toInt + radius.toNat).toNat, List.mem_range.2 (by omega), ?_⟩
    rw [← Int32.toInt_inj, toInt_offset h (by omega)]
    omega

theorem offsets_sorted {radius : UInt32} (h : radius.toNat < 2 ^ 31) :
    (offsets radius).Pairwise (· ≤ ·) := by
  rw [offsets, List.pairwise_map]
  refine List.pairwise_lt_range.imp_of_mem ?_
  intro i j hi hj hlt
  rw [Int32.le_iff_toInt_le, toInt_offset h (List.mem_range.1 hi),
    toInt_offset h (List.mem_range.1 hj)]
  omega

/-- The coordinates that are visited on one axis. -/
def reached (origin : Int32) (radius : UInt32) : List Int32 :=
  (offsets radius).map fun d => clamp32 (origin.toInt + d.toInt)

theorem mem_reached {origin : Int32} {radius : UInt32} (h : radius.toNat < 2 ^ 31) {c : Int32} :
    c ∈ reached origin radius ↔ |c.toInt - origin.toInt| ≤ radius.toNat := by
  have hmin := origin.minValue_le_toInt
  have hmax := origin.toInt_le
  rw [reached, List.mem_map, abs_le]
  constructor
  · rintro ⟨d, hd, rfl⟩
    -- Stopping at the edge brings a coordinate back towards the origin, which is in range.
    rw [mem_offsets h, abs_le] at hd
    rw [toInt_clamp32]
    omega
  · intro hc
    have hcmin := c.minValue_le_toInt
    have hcmax := c.toInt_le
    have hd : (Int32.ofInt (c.toInt - origin.toInt)).toInt = c.toInt - origin.toInt :=
      Int32.toInt_ofInt_of_le (by omega) (by omega)
    refine ⟨Int32.ofInt (c.toInt - origin.toInt), ?_, ?_⟩
    · rw [mem_offsets h, hd, abs_le]
      exact hc
    · rw [← Int32.toInt_inj, toInt_clamp32, hd]
      omega

theorem reached_sorted {origin : Int32} {radius : UInt32} (h : radius.toNat < 2 ^ 31) :
    (reached origin radius).Pairwise (· ≤ ·) := by
  refine (offsets_sorted h).map _ ?_
  intro d e hle
  rw [Int32.le_iff_toInt_le] at hle ⊢
  rw [toInt_clamp32, toInt_clamp32]
  omega

theorem cube_eq (origin : Position) (radius : UInt32) :
    cube origin (offsets radius) =
      (reached origin.x radius).flatMap fun x =>
        (reached origin.y radius).flatMap fun y =>
          (reached origin.z radius).flatMap fun z => [⟨x, y, z⟩] := by
  simp only [reached, List.flatMap_map]
  simp only [cube, List.map_eq_flatMap]
  rfl

/-- A search visits the positions of the cube and no others. -/
theorem mem_cube {origin : Position} {radius : UInt32} (h : radius.toNat < 2 ^ 31) {p : Position} :
    p ∈ cube origin (offsets radius) ↔ Position.Within origin radius p := by
  rw [cube_eq, Position.Within, ← mem_reached h, ← mem_reached h, ← mem_reached h]
  simp only [List.mem_flatMap, List.mem_singleton]
  constructor
  · rintro ⟨x, hx, y, hy, z, hz, rfl⟩
    exact ⟨hx, hy, hz⟩
  · rintro ⟨hx, hy, hz⟩
    exact ⟨p.x, hx, p.y, hy, p.z, hz, rfl⟩

/-! ## Order of the visits -/

/-- Each element stands for the first time after all that are less. -/
def InOrder {α : Type} [DecidableEq α] (less : α → α → Prop) (l : List α) : Prop :=
  ∀ p ∈ l, ∀ q ∈ l, less p q → l.idxOf p < l.idxOf q

section InOrder

variable {α : Type} [DecidableEq α] {less : α → α → Prop}

theorem inOrder_singleton (hirrefl : ∀ a, ¬ less a a) (a : α) : InOrder less [a] := by
  intro p hp q hq h
  rw [List.mem_singleton.1 hp, List.mem_singleton.1 hq] at h
  exact absurd h (hirrefl a)

/-- Rows one after the other. A row may come again: what is in it has then been there before. -/
theorem InOrder.flatMap {keys : List Int32} {row : Int32 → List α}
    (hsorted : keys.Pairwise (· ≤ ·)) (hrow : ∀ k, InOrder less (row k))
    (hless : ∀ k l, ∀ p ∈ row k, ∀ q ∈ row l, less p q → k ≤ l) :
    InOrder less (keys.flatMap row) := by
  induction keys with
  | nil => simp [InOrder]
  | cons k keys ih =>
    obtain ⟨hk, hsorted⟩ := List.pairwise_cons.1 hsorted
    intro p hp q hq h
    rw [List.flatMap_cons] at hp hq ⊢
    rw [List.idxOf_append, List.idxOf_append]
    by_cases hqk : q ∈ row k
    · -- A later row that holds something less has the same key, so it is this row.
      have hpk : p ∈ row k := by
        rcases List.mem_append.1 hp with hp | hp
        · exact hp
        · obtain ⟨l, hl, hp⟩ := List.mem_flatMap.1 hp
          have hle : l ≤ k := hless l k p hp q hqk h
          rwa [Int32.le_antisymm (hk l hl) hle]
      rw [if_pos hpk, if_pos hqk]
      exact hrow k p hpk q hqk h
    · rw [if_neg hqk]
      by_cases hpk : p ∈ row k
      · have hlt := List.idxOf_lt_length_iff.2 hpk
        rw [if_pos hpk]
        omega
      · have hlt := ih hsorted p ((List.mem_append.1 hp).resolve_left hpk) q
          ((List.mem_append.1 hq).resolve_left hqk) h
        rw [if_neg hpk]
        omega

theorem idxOf_filter_lt {l : List α} {keep : α → Bool} {p q : α} (hp : keep p = true)
    (h : l.idxOf p < l.idxOf q) : (l.filter keep).idxOf p < (l.filter keep).idxOf q := by
  induction l with
  | nil => simp at h
  | cons a l ih =>
    have hqa : a ≠ q := by
      rintro rfl
      simp at h
    by_cases hpa : a = p
    · subst hpa
      rw [List.filter_cons_of_pos hp, List.idxOf_cons_self, List.idxOf_cons_ne _ hqa]
      exact Nat.succ_pos _
    · rw [List.idxOf_cons_ne _ hpa, List.idxOf_cons_ne _ hqa] at h
      have hlt := ih (Nat.lt_of_succ_lt_succ h)
      by_cases hkeep : keep a = true
      · rw [List.filter_cons_of_pos hkeep, List.idxOf_cons_ne _ hpa, List.idxOf_cons_ne _ hqa]
        exact Nat.succ_lt_succ hlt
      · rw [List.filter_cons_of_neg hkeep]
        exact hlt

/-- Leaving elements out does not change which of the others comes first. -/
theorem InOrder.filter {l : List α} (h : InOrder less l) (keep : α → Bool) :
    InOrder less (l.filter keep) := by
  intro p hp q hq hless
  obtain ⟨hp, hkeep⟩ := List.mem_filter.1 hp
  exact idxOf_filter_lt hkeep (h p hp q (List.mem_filter.1 hq).1 hless)

end InOrder

/-- A search visits each position for the first time after all that precede it. -/
theorem cube_inOrder {origin : Position} {radius : UInt32} (h : radius.toNat < 2 ^ 31) :
    InOrder Position.Precedes (cube origin (offsets radius)) := by
  rw [cube_eq]
  refine InOrder.flatMap (reached_sorted h) (fun x => ?_) ?_
  · refine InOrder.flatMap (reached_sorted h) (fun y => ?_) ?_
    · refine InOrder.flatMap (reached_sorted h)
        (fun z => inOrder_singleton Position.not_precedes_self _) ?_
      intro k l p hp q hq hless
      simp only [List.mem_singleton] at hp hq
      subst hp hq
      simp only [Position.Precedes, Int32.lt_iff_toInt_lt, Int32.le_iff_toInt_le] at hless ⊢
      omega
    · intro k l p hp q hq hless
      simp only [List.mem_flatMap, List.mem_singleton] at hp hq
      obtain ⟨z, -, rfl⟩ := hp
      obtain ⟨w, -, rfl⟩ := hq
      simp only [Position.Precedes, Int32.lt_iff_toInt_lt, Int32.le_iff_toInt_le,
        ← Int32.toInt_inj] at hless ⊢
      omega
  · intro k l p hp q hq hless
    simp only [List.mem_flatMap, List.mem_singleton] at hp hq
    obtain ⟨y, -, z, -, rfl⟩ := hp
    obtain ⟨v, -, w, -, rfl⟩ := hq
    simp only [Position.Precedes, Int32.lt_iff_toInt_lt, Int32.le_iff_toInt_le,
      ← Int32.toInt_inj] at hless ⊢
    omega

end Search

end BlockScript
