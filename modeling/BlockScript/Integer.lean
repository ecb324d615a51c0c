/-!
# Machine-size integers

Coordinates have 32 bits and script integers 64, counts have 32 bits without a sign. Sums and products
are taken in `Int` or `Nat` and brought back by a `fit`, which refuses a number of the wrong size, or
by `clamp32`, which stops at the nearer end of the range.
-/
namespace BlockScript
set_option autoImplicit false

def fit32 (n : Int) : Option Int32 :=
  if Int32.minValue.toInt ≤ n ∧ n ≤ Int32.maxValue.toInt then some (Int32.ofInt n) else none

def fit64 (n : Int) : Option Int64 :=
  if Int64.minValue.toInt ≤ n ∧ n ≤ Int64.maxValue.toInt then some (Int64.ofInt n) else none

def fitCount (n : Nat) : Option UInt32 :=
  if n < UInt32.size then some (UInt32.ofNat n) else none

def clamp32 (n : Int) : Int32 :=
  Int32.ofInt (max Int32.minValue.toInt (min n Int32.maxValue.toInt))

theorem fit32_eq_some_iff {n : Int} {m : Int32} : fit32 n = some m ↔ m.toInt = n := by
  unfold fit32
  split
  · next h =>
    constructor
    · intro hm
      rw [← Option.some.inj hm]
      exact Int32.toInt_ofInt_of_le h.1 (Int.lt_of_le_of_lt h.2 (by decide))
    · intro hm
      rw [← hm, Int32.ofInt_toInt]
  · next h =>
    constructor
    · intro hm
      cases hm
    · intro hm
      exact absurd ⟨hm ▸ m.minValue_le_toInt, hm ▸ m.toInt_le⟩ h

theorem fit64_eq_some_iff {n : Int} {m : Int64} : fit64 n = some m ↔ m.toInt = n := by
  unfold fit64
  split
  · next h =>
    constructor
    · intro hm
      rw [← Option.some.inj hm]
      exact Int64.toInt_ofInt_of_le h.1 (Int.lt_of_le_of_lt h.2 (by decide))
    · intro hm
      rw [← hm, Int64.ofInt_toInt]
  · next h =>
    constructor
    · intro hm
      cases hm
    · intro hm
      exact absurd ⟨hm ▸ m.minValue_le_toInt, hm ▸ m.toInt_le⟩ h

theorem fitCount_eq_some_iff {n : Nat} {m : UInt32} : fitCount n = some m ↔ m.toNat = n := by
  unfold fitCount
  split
  · next h =>
    constructor
    · intro hm
      rw [← Option.some.inj hm]
      exact UInt32.toNat_ofNat_of_lt' h
    · intro hm
      rw [← hm, UInt32.ofNat_toNat]
  · next h =>
    constructor
    · intro hm
      cases hm
    · intro hm
      exact absurd (hm ▸ m.toNat_lt) h

theorem fitCount_eq_none_iff {n : Nat} : fitCount n = none ↔ UInt32.size ≤ n := by
  unfold fitCount
  split
  · next h => exact ⟨nofun, fun hle => absurd h (Nat.not_lt.2 hle)⟩
  · next h => exact ⟨fun _ => Nat.not_lt.1 h, fun _ => rfl⟩

theorem fit64_toInt (m : Int64) : fit64 m.toInt = some m := fit64_eq_some_iff.2 rfl

end BlockScript
