import MediaHarvest.Number.Binary64
import Mathlib.Algebra.Group.Nat.Defs

/-!
# Rounding large integers

An integer with more than 53 binary digits is rounded to its leading ones.  It never falls below the
power of two at its front, so what is out of a range that ends at such a power stays out of it.
-/

namespace MediaHarvest.Number

/-- Rounding to the nearest integer does not go below the quotient. -/
theorem div_le_roundDiv (num den : Nat) : num / den ≤ roundDiv num den := by
  rw [roundDiv]
  split
  · exact Nat.le_succ _
  · exact Nat.le_refl _

/-- The power of two at the front of an integer. -/
theorem floorLog2_one {num : Nat} (positive : num ≠ 0) : floorLog2 num 1 = num.log2 := by
  have one : Nat.log2 1 = 0 := by decide
  have guess : (num.log2 : Int) - (Nat.log2 1 : Nat) = num.log2 := by rw [one]; simp
  have reached : 1 * Nat.pow 2 (num.log2 : Int).toNat ≤ num := by
    rw [Nat.one_mul]
    exact Nat.log2_self_le positive
  rw [floorLog2, guess]
  simp only [Int.natCast_nonneg, if_true]
  rw [if_pos (by simpa using reached)]

namespace Binary64

/-- Scaling by a power of two a magnitude that is an integer. -/
theorem floor_scaled {significand scale exponent : Nat} :
    floor ⟨significand, (scale : Int) + exponent⟩ = significand * 2 ^ scale * 2 ^ exponent := by
  have positive : (0 : Int) ≤ (scale : Int) + exponent := by omega
  have sum : ((scale : Int) + exponent).toNat = scale + exponent := by omega
  rw [floor, quotient]
  dsimp only
  rw [if_pos positive, sum, Nat.div_one, Nat.pow_eq, Nat.pow_add, Nat.mul_assoc]

/-- A large integer is rounded to no less than the power of two at its front. -/
theorem nearest?_of_wide {num : Nat} (wide : 52 ≤ num.log2) {x : Binary64}
    (rounded : nearest? num 1 = some x) :
    ∃ scale : Nat, x.exponent = scale ∧ 2 ^ num.log2 ≤ x.significand * 2 ^ scale := by
  have positive : num ≠ 0 := by
    rintro rfl
    simp at wide
  have front : (max ((num.log2 : Int) - 52) (-1074)) = (num.log2 - 52 : Nat) := by omega
  rw [nearest?, if_neg positive, floorLog2_one positive, front] at rounded
  simp only [Int.natCast_nonneg, if_true, Int.toNat_natCast] at rounded
  split at rounded
  · cases rounded
  · cases rounded
    refine ⟨num.log2 - 52, rfl, ?_⟩
    have leading : 2 ^ 52 ≤ num / 2 ^ (num.log2 - 52) := by
      rw [Nat.le_div_iff_mul_le (Nat.two_pow_pos _), ← Nat.pow_add, Nat.add_sub_cancel' wide]
      exact Nat.log2_self_le positive
    have kept : 2 ^ 52 ≤ roundDiv num (1 * Nat.pow 2 (num.log2 - 52)) := by
      rw [Nat.one_mul]
      exact Nat.le_trans leading (div_le_roundDiv ..)
    calc 2 ^ num.log2 = 2 ^ 52 * 2 ^ (num.log2 - 52) := by
          rw [← Nat.pow_add, Nat.add_sub_cancel' wide]
      _ ≤ _ := Nat.mul_le_mul_right _ kept

end Binary64

end MediaHarvest.Number
