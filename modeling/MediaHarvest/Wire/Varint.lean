import MediaHarvest.Text.Bytes

/-!
# Numbers of variable length

A number of 64 bits is written in groups of seven bits, the lowest first, with the top bit set in
every byte but the last.  Reading takes at most ten bytes and refuses a number beyond 64 bits.

`read_write` says that reading takes back exactly what was written, whatever follows it.
-/

namespace MediaHarvest.Wire.Varint

/-- At most `count` groups of a number. -/
def groups : Nat → Nat → Bytes
  | 0, _ => []
  | count + 1, n =>
      if n < 128 then [UInt8.ofNat n] else UInt8.ofNat (n % 128 + 128) :: groups count (n / 128)

/-- Writes a number of 64 bits. -/
def write (n : UInt64) : Bytes := groups 10 n.toNat

/-- Reads at most `count` groups, the first of weight `scale`, onto a sum.  The last of ten groups
may hold a single bit. -/
def readGroups : Nat → Nat → Nat → Bytes → Option (Nat × Bytes)
  | 0, _, _, _ => none
  | _, _, _, [] => none
  | count + 1, scale, sum, byte :: rest =>
      let total := sum + byte.toNat % 128 * scale
      if byte < 128 then
        if count = 0 ∧ 2 ≤ byte then none else some (total, rest)
      else readGroups count (scale * 128) total rest

/-- Reads a number of 64 bits. -/
def read (bytes : Bytes) : Option (UInt64 × Bytes) :=
  (readGroups 10 1 0 bytes).map fun (n, rest) => (UInt64.ofNat n, rest)

theorem readGroups_groups (count scale sum n : Nat) (rest : Bytes)
    (bound : n < 2 * Nat.pow 128 count) :
    readGroups (count + 1) scale sum (groups (count + 1) n ++ rest) =
      some (sum + n * scale, rest) := by
  induction count generalizing scale sum n with
  | zero =>
      have small : n < 2 := by simpa using bound
      have h : (UInt8.ofNat n).toNat = n := by
        simp only [UInt8.toNat_ofNat']; omega
      have below : UInt8.ofNat n < 128 := by
        rw [UInt8.lt_iff_toNat_lt, h]; exact Nat.lt_trans small (by decide)
      have single : ¬ (2 : UInt8) ≤ UInt8.ofNat n := by
        rw [UInt8.le_iff_toNat_le, h]; exact Nat.not_le.2 small
      have : n % 128 = n := Nat.mod_eq_of_lt (by omega)
      simp [groups, readGroups, show n < 128 by omega, below, single, h, this]
  | succ count ih =>
      by_cases small : n < 128
      · have h : (UInt8.ofNat n).toNat = n := by
          simp only [UInt8.toNat_ofNat']; omega
        have below : UInt8.ofNat n < 128 := by
          rw [UInt8.lt_iff_toNat_lt, h]; exact small
        have : n % 128 = n := Nat.mod_eq_of_lt small
        simp [groups, readGroups, small, below, h, this]
      · have h : (UInt8.ofNat (n % 128 + 128)).toNat = n % 128 + 128 := by
          simp only [UInt8.toNat_ofNat']; omega
        have above : ¬ UInt8.ofNat (n % 128 + 128) < 128 := by
          rw [UInt8.lt_iff_toNat_lt, h]; simp
        have unfolded : groups (count + 1 + 1) n =
            UInt8.ofNat (n % 128 + 128) :: groups (count + 1) (n / 128) := by
          rw [groups, if_neg small]
        have step : Nat.pow 128 (count + 1) = Nat.pow 128 count * 128 := rfl
        rw [unfolded, List.cons_append, readGroups]
        simp only [above, if_false, h]
        rw [ih (scale * 128) _ (n / 128) (by rw [step] at bound; omega)]
        have split := Nat.div_add_mod n 128
        have remainder : (n % 128 + 128) % 128 = n % 128 := by omega
        have : n % 128 * scale + n / 128 * (scale * 128) = n * scale := by
          calc n % 128 * scale + n / 128 * (scale * 128)
              = (128 * (n / 128) + n % 128) * scale := by
                rw [Nat.add_mul, Nat.mul_comm scale 128, ← Nat.mul_assoc,
                  Nat.mul_comm (n / 128) 128, Nat.add_comm]
            _ = n * scale := by rw [split]
        rw [remainder, Nat.add_assoc, this]

/-- Reading takes back what was written. -/
@[simp]
theorem read_write (n : UInt64) (rest : Bytes) : read (write n ++ rest) = some (n, rest) := by
  have bound : n.toNat < 2 * Nat.pow 128 9 := n.toNat_lt
  simp [read, write, readGroups_groups 9 1 0 n.toNat rest bound]

end MediaHarvest.Wire.Varint
