import MediaHarvest.Store.Partition
import Mathlib.Algebra.Group.Nat.Defs

/-!
# Numbers as keys

The eight bytes of a number give the number back, so different numbers have different keys.  Byte
strings of one length are ordered as the numbers that they write, so the keys of numbers are in the
order of the numbers.
-/

namespace MediaHarvest.Partition

/-- The number that bytes write behind the digits of `n`. -/
def valueFrom (n : Nat) (bytes : Bytes) : Nat :=
  bytes.foldl (fun n byte => 256 * n + byte.toNat) n

theorem valueFrom_wordKey (n : UInt64) : valueFrom 0 (wordKey n) = n.toNat := by
  have small : n.toNat < 2 ^ 64 := n.toNat_lt
  simp only [valueFrom, wordKey, List.map_cons, List.map_nil, List.foldl_cons, List.foldl_nil,
    UInt8.toNat_ofNat', Nat.pow_eq, Nat.reducePow]
  omega

@[simp]
theorem wordOfKey?_wordKey (n : UInt64) : wordOfKey? (wordKey n) = some n := by
  have value := valueFrom_wordKey n
  rw [valueFrom] at value
  rw [wordOfKey?, if_pos (by rfl), value, UInt64.ofNat_toNat]

theorem wordKey_inj {first second : UInt64} : wordKey first = wordKey second ↔ first = second := by
  constructor
  · intro same
    have := congrArg wordOfKey? same
    simpa using this
  · rintro rfl
    rfl

/-! ## The order of keys -/

/-- The digits in front count in steps of the power of 256 that all the others stay below. -/
theorem valueFrom_bounds (n : Nat) (bytes : Bytes) :
    n * 256 ^ bytes.length ≤ valueFrom n bytes ∧
      valueFrom n bytes < (n + 1) * 256 ^ bytes.length := by
  induction bytes generalizing n with
  | nil => simp [valueFrom]
  | cons byte rest ih =>
      have small : byte.toNat < 256 := byte.toNat_lt
      have split (m : Nat) : m * 256 ^ (byte :: rest).length = 256 * m * 256 ^ rest.length := by
        rw [List.length_cons, Nat.pow_succ, Nat.mul_comm (256 ^ _), ← Nat.mul_assoc,
          Nat.mul_comm m]
      obtain ⟨lower, upper⟩ := ih (256 * n + byte.toNat)
      rw [split, split]
      constructor
      · calc 256 * n * 256 ^ rest.length
            ≤ (256 * n + byte.toNat) * 256 ^ rest.length :=
              Nat.mul_le_mul_right _ (Nat.le_add_right _ _)
          _ ≤ valueFrom n (byte :: rest) := lower
      · calc valueFrom n (byte :: rest)
            < (256 * n + byte.toNat + 1) * 256 ^ rest.length := upper
          _ ≤ 256 * (n + 1) * 256 ^ rest.length := Nat.mul_le_mul_right _ (by omega)

/-- A higher digit in front outweighs all that follows. -/
theorem valueFrom_lt_of_lt {low high : Nat} (less : low < high) {first second : Bytes}
    (same : first.length = second.length) : valueFrom low first < valueFrom high second := by
  calc valueFrom low first
      < (low + 1) * 256 ^ first.length := (valueFrom_bounds low first).2
    _ ≤ high * 256 ^ first.length := Nat.mul_le_mul_right _ less
    _ = high * 256 ^ second.length := by rw [same]
    _ ≤ valueFrom high second := (valueFrom_bounds high second).1

/-- Byte strings of one length are ordered as the numbers that they write. -/
theorem valueFrom_lt_iff (n : Nat) {first second : Bytes} (same : first.length = second.length) :
    valueFrom n first < valueFrom n second ↔ first < second := by
  induction first generalizing n second with
  | nil =>
      obtain rfl : second = [] := List.length_eq_zero_iff.1 same.symm
      simp
  | cons a rest ih =>
      cases second with
      | nil => cases same
      | cons b others =>
          have tails : rest.length = others.length := Nat.succ.inj same
          have step (byte : UInt8) (bytes : Bytes) :
              valueFrom n (byte :: bytes) = valueFrom (256 * n + byte.toNat) bytes := rfl
          rw [step, step, List.cons_lt_cons_iff]
          rcases Nat.lt_trichotomy a.toNat b.toNat with less | equal | more
          · have below : a < b := UInt8.lt_iff_toNat_lt.2 less
            exact iff_of_true (valueFrom_lt_of_lt (by omega) tails) (.inl below)
          · obtain rfl : a = b := UInt8.toNat_inj.1 equal
            rw [ih _ tails]
            simp
          · have above : b < a := UInt8.lt_iff_toNat_lt.2 more
            refine iff_of_false (Nat.lt_asymm (valueFrom_lt_of_lt (by omega) tails.symm)) ?_
            rintro (below | ⟨rfl, _⟩)
            · exact UInt8.lt_asymm above below
            · exact Nat.lt_irrefl _ more

/-- The keys of numbers are in the order of the numbers. -/
theorem wordKey_lt_iff {first second : UInt64} : wordKey first < wordKey second ↔ first < second := by
  rw [← valueFrom_lt_iff 0 (by rfl), valueFrom_wordKey, valueFrom_wordKey, UInt64.lt_iff_toNat_lt]

end MediaHarvest.Partition
