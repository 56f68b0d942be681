import MediaHarvest.Text.Bytes

/-!
# Reading UTF-8 with gaps

Bytes that are not UTF-8 are shown as the replacement character, one for every longest part that
could have begun a character.
-/

namespace MediaHarvest.Text

/-- What the first byte of a character tells: how many bytes follow it, the range of the next one,
and the bits of the character that it holds. -/
structure Opening where
  /-- How many bytes follow. -/
  following : Nat
  low : UInt8
  high : UInt8
  bits : Nat

/-- What a byte opens; none if no character starts with it. -/
def opening? (byte : UInt8) : Option Opening :=
  let n := byte.toNat
  if n < 128 then some ⟨0, 0, 0, n⟩
  else if n < 0xc2 then none
  else if n < 0xe0 then some ⟨1, 0x80, 0xbf, n - 0xc0⟩
  else if n < 0xf0 then
    some ⟨2, if n = 0xe0 then 0xa0 else 0x80, if n = 0xed then 0x9f else 0xbf, n - 0xe0⟩
  else if n < 0xf5 then
    some ⟨3, if n = 0xf0 then 0x90 else 0x80, if n = 0xf4 then 0x8f else 0xbf, n - 0xf0⟩
  else none

/-- Takes the bytes that follow an opening; none if one of them is missing. -/
def follow (bits : Nat) (low high : UInt8) : Nat → Bytes → Option Nat × Bytes
  | 0, rest => (some bits, rest)
  | _ + 1, [] => (none, [])
  | count + 1, byte :: rest =>
      if low ≤ byte ∧ byte ≤ high then
        follow (64 * bits + byte.toNat % 64) 0x80 0xbf count rest
      else (none, byte :: rest)

theorem length_follow (bits : Nat) (low high : UInt8) (count : Nat) (rest : Bytes) :
    (follow bits low high count rest).2.length ≤ rest.length := by
  induction count generalizing bits low high rest with
  | zero => simp [follow]
  | succ count ih =>
      cases rest with
      | nil => simp [follow]
      | cons byte rest =>
          simp only [follow]
          split
          · exact Nat.le_trans (ih _ _ _ _) (Nat.le_succ _)
          · exact Nat.le_refl _

/-- The replacement character. -/
def replacement : Char := '\ufffd'

/-- The characters of bytes, with replacements for what is not UTF-8. -/
def lossyChars : Bytes → List Char
  | [] => []
  | byte :: rest =>
      match opening? byte with
      | none => replacement :: lossyChars rest
      | some opening =>
          let followed := follow opening.bits opening.low opening.high opening.following rest
          match followed.1 with
          | some n => Char.ofNat n :: lossyChars followed.2
          | none => replacement :: lossyChars followed.2
termination_by bytes => bytes.length
decreasing_by
  · exact Nat.lt_succ_self _
  all_goals exact Nat.lt_succ_of_le (length_follow _ _ _ _ _)

/-- The text of bytes, with replacements for what is not UTF-8. -/
def lossy (bytes : Bytes) : String := String.ofList (lossyChars bytes)

end MediaHarvest.Text
