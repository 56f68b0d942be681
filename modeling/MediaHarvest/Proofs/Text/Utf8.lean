import MediaHarvest.Text.Bytes

/-!
# Texts character by character

The bytes of a text are those of its characters one after another.  A character below 128 is the
byte of its number; of every other character all bytes are at least 128, so that no byte of it is
taken for another character.
-/

namespace MediaHarvest.Text

/-- The bytes of characters. -/
def encode (chars : List Char) : Bytes := chars.flatMap String.utf8EncodeChar

theorem utf8_ofList (chars : List Char) : utf8 (String.ofList chars) = encode chars := by
  simp [utf8, encode, List.utf8Encode]

theorem utf8_eq (text : String) : utf8 text = encode text.toList := by
  rw [← utf8_ofList, String.ofList_toList]

@[simp]
theorem encode_nil : encode [] = [] := rfl

@[simp]
theorem encode_append (first second : List Char) :
    encode (first ++ second) = encode first ++ encode second :=
  List.flatMap_append

theorem encode_cons (c : Char) (chars : List Char) :
    encode (c :: chars) = String.utf8EncodeChar c ++ encode chars :=
  List.flatMap_cons

@[simp]
theorem utf8_append (first second : String) :
    utf8 (first ++ second) = utf8 first ++ utf8 second := by
  rw [utf8_eq, utf8_eq, utf8_eq, String.toList_append, encode_append]

/-- The byte of a character below 128. -/
theorem utf8EncodeChar_of_lt {c : Char} (ascii : c.toNat < 128) :
    String.utf8EncodeChar c = [c.toUInt8] := by
  have small : c.val.toNat ≤ 127 := Nat.le_of_lt_succ ascii
  rw [String.utf8EncodeChar, if_pos small]
  rfl

/-- A character below 128 is one byte. -/
theorem encode_cons_of_lt {c : Char} (ascii : c.toNat < 128) (chars : List Char) :
    encode (c :: chars) = c.toUInt8 :: encode chars := by
  rw [encode_cons, utf8EncodeChar_of_lt ascii]
  rfl

/-- Characters below 128 are their bytes. -/
theorem encode_of_forall_lt {chars : List Char} (ascii : ∀ c ∈ chars, c.toNat < 128) :
    encode chars = chars.map Char.toUInt8 := by
  induction chars with
  | nil => rfl
  | cons c chars ih =>
      rw [encode_cons_of_lt (ascii c List.mem_cons_self),
        ih fun c mem => ascii c (List.mem_cons_of_mem _ mem), List.map_cons]

/-- All bytes of a character from 128 on are at least 128. -/
theorem le_of_mem_utf8EncodeChar {c : Char} (wide : 128 ≤ c.toNat) {b : UInt8}
    (mem : b ∈ String.utf8EncodeChar c) : 128 ≤ b.toNat := by
  have valid : c.val.toNat < 0x110000 := by
    rcases c.valid with low | ⟨_, high⟩
    · have := low
      omega
    · exact high
  have large : ¬ c.val.toNat ≤ 127 := Nat.not_le.2 wide
  rw [String.utf8EncodeChar] at mem
  simp only [if_neg large] at mem
  split at mem
  · simp only [List.mem_cons, List.not_mem_nil, or_false] at mem
    rcases mem with rfl | rfl <;> simp only [UInt8.toNat_ofNat'] <;> omega
  · split at mem
    · simp only [List.mem_cons, List.not_mem_nil, or_false] at mem
      rcases mem with rfl | rfl | rfl <;> simp only [UInt8.toNat_ofNat'] <;> omega
    · simp only [List.mem_cons, List.not_mem_nil, or_false] at mem
      rcases mem with rfl | rfl | rfl | rfl <;> simp only [UInt8.toNat_ofNat'] <;> omega

end MediaHarvest.Text
