import Mathlib.Algebra.Group.Int.Defs
import Mathlib.Algebra.Group.Nat.Defs

/-!
# Counters of 32 bits

Counting up and down by one where the counter wraps: what it counts as a number, and the
bounds within which it does.
-/

namespace MessageBus.Base

/-- Below the largest value, counting up adds one. -/
theorem toInt_add_one {count : Int32} (h : count ≠ Int32.maxValue) :
    (count + 1).toInt = count.toInt + 1 := by
  have hlt := count.toInt_lt
  have hle := count.le_toInt
  have hne : count.toInt ≠ 2 ^ 31 - 1 := fun he => h (Int32.toInt_inj.mp he)
  rw [Int32.toInt_add]
  show Int.bmod (count.toInt + 1) (2 ^ 32) = count.toInt + 1
  rw [Int.bmod_eq_of_le]
  · omega
  · omega

/-- At the largest value, counting up wraps. -/
theorem toInt_add_one_of_maxValue :
    (Int32.maxValue + 1).toInt = Int32.maxValue.toInt + 1 - 2 ^ 32 := rfl

/-- Above zero, counting down takes one. -/
theorem toInt_sub_one {count : Int32} (h : 0 < count.toInt) :
    (count - 1).toInt = count.toInt - 1 := by
  have hlt := count.toInt_lt
  rw [Int32.toInt_sub]
  show Int.bmod (count.toInt - 1) (2 ^ 32) = count.toInt - 1
  rw [Int.bmod_eq_of_le]
  · omega
  · omega

/-- Below the largest value, counting up from a positive number is counting up a number. -/
theorem toNat_add_one {count : Int32} (hpos : 0 < count.toNatClampNeg)
    (h : count ≠ Int32.maxValue) :
    (count + 1).toNatClampNeg = count.toNatClampNeg + 1 := by
  have hadd := toInt_add_one h
  rw [← Int32.toNat_toInt] at hpos ⊢
  rw [← Int32.toNat_toInt]
  omega

/-- Counting down a positive number is counting down a number. -/
theorem toNat_sub_one {count : Int32} (hpos : 0 < count.toNatClampNeg) :
    (count - 1).toNatClampNeg = count.toNatClampNeg - 1 := by
  rw [← Int32.toNat_toInt] at hpos ⊢
  rw [← Int32.toNat_toInt]
  have hsub : (count - 1).toInt = count.toInt - 1 := toInt_sub_one (by omega)
  omega

/-- A counter is positive if it counts a positive number. -/
theorem toNat_pos_iff {count : Int32} : 0 < count.toNatClampNeg ↔ 0 < count := by
  rw [← Int32.toNat_toInt, Int32.lt_iff_toInt_lt, Int32.toInt_zero]
  omega

/-- A counter counts less than its bound. -/
theorem toNat_lt (count : Int32) : count.toNatClampNeg < 2 ^ 31 := by
  have hlt := count.toInt_lt
  rw [← Int32.toNat_toInt]
  omega

/-- Counting down reaches zero from one, and from no other value. -/
theorem sub_one_eq_zero_iff {count : Int32} : count - 1 = 0 ↔ count = 1 := by grind

/-- A counter is one if it counts one. -/
theorem toInt_eq_one_iff {count : Int32} : count.toInt = 1 ↔ count = 1 :=
  ⟨fun h => Int32.toInt_inj.mp h, fun h => by rw [h]; rfl⟩

end MessageBus.Base
