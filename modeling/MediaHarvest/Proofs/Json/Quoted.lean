import MediaHarvest.Json.Reader
import MediaHarvest.Json.Value
import MediaHarvest.Proofs.Text.Utf8

/-!
# Reading back quoted texts

A text in quotes is passed over up to its closing quote and read as the text that was quoted.  A
character stands in the quotes either as an escape, which is read as a whole, or as its own bytes,
none of which ends the text or starts an escape.
-/

namespace MediaHarvest.Json

open MediaHarvest.Text

/-- A byte that stands for itself inside quotes. -/
def Plain (b : UInt8) : Prop := b ≠ byte '"' ∧ b ≠ byte '\\' ∧ ¬ b < 32

theorem held_held (first second : Bytes) (rest : Except Fault (Bytes × Bytes)) :
    held first (held second rest) = held (first ++ second) rest := by
  cases rest with
  | ok result => simp [held, Except.map]
  | error fault => rfl

theorem skipQuoted_plain {front : Bytes} (plain : ∀ b ∈ front, Plain b) (rest : Bytes) :
    skipQuoted (front ++ rest) = skipQuoted rest := by
  induction front with
  | nil => rfl
  | cons b front ih =>
      obtain ⟨quote, backslash, control⟩ := plain b List.mem_cons_self
      rw [List.cons_append, skipQuoted.eq_def]
      dsimp only
      rw [if_neg quote, if_neg backslash, if_neg control]
      exact ih fun b mem => plain b (List.mem_cons_of_mem _ mem)

theorem readQuoted_plain {front : Bytes} (plain : ∀ b ∈ front, Plain b) (rest : Bytes) :
    readQuoted (front ++ rest) = held front (readQuoted rest) := by
  induction front with
  | nil =>
      rw [List.nil_append]
      cases readQuoted rest <;> rfl
  | cons b front ih =>
      obtain ⟨quote, backslash, control⟩ := plain b List.mem_cons_self
      rw [List.cons_append, readQuoted.eq_def]
      dsimp only
      rw [if_neg quote, if_neg backslash, if_neg control,
        ih fun b mem => plain b (List.mem_cons_of_mem _ mem), held_held]
      rfl

/-- A character that is not escaped is made of bytes that stand for themselves. -/
theorem plain_utf8EncodeChar {c : Char} (quote : c ≠ '"') (backslash : c ≠ '\\')
    (control : ¬ c.toNat < 32) : ∀ b ∈ String.utf8EncodeChar c, Plain b := by
  intro b mem
  by_cases ascii : c.toNat < 128
  · rw [utf8EncodeChar_of_lt ascii, List.mem_singleton] at mem
    subst mem
    have value : c.toUInt8.toNat = c.toNat := by
      rw [Char.toUInt8, UInt32.toNat_toUInt8]
      exact Nat.mod_eq_of_lt (Nat.lt_trans ascii (by decide))
    have differ {other : Char} (small : other.toNat < 128) (ne : c ≠ other) :
        c.toUInt8 ≠ byte other := by
      intro same
      have numbers := congrArg UInt8.toNat same
      rw [value, byte, Char.toUInt8, UInt32.toNat_toUInt8] at numbers
      refine ne (Char.toNat_inj.1 (numbers.trans (Nat.mod_eq_of_lt ?_)))
      exact Nat.lt_trans small (by decide)
    refine ⟨differ (by decide) quote, differ (by decide) backslash, ?_⟩
    rw [UInt8.lt_iff_toNat_lt, value]
    exact control
  · have wide := le_of_mem_utf8EncodeChar (Nat.not_lt.1 ascii) mem
    have bound {other : UInt8} (small : other.toNat < 128) : b ≠ other := by
      rintro rfl
      omega
    refine ⟨bound (by decide), bound (by decide), ?_⟩
    rw [UInt8.lt_iff_toNat_lt]
    show ¬ b.toNat < 32
    omega

theorem hexValue?_hexDigit {value : Nat} (small : value < 16) :
    hexValue? (byte (hexDigit value)) = some value := by
  revert value
  decide

theorem hexDigit_lt {value : Nat} (small : value < 16) : (hexDigit value).toNat < 128 := by
  revert value
  decide

/-- The bytes of an escape by number. -/
theorem encode_numbered {c : Char} (control : c.toNat < 32) :
    encode ['\\', 'u', '0', '0', hexDigit (c.toNat / 16), hexDigit (c.toNat % 16)] =
      [byte '\\', byte 'u', byte '0', byte '0', byte (hexDigit (c.toNat / 16)),
        byte (hexDigit (c.toNat % 16))] := by
  have high := hexDigit_lt (show c.toNat / 16 < 16 by omega)
  have low := hexDigit_lt (show c.toNat % 16 < 16 by omega)
  refine encode_of_forall_lt fun other mem => ?_
  simp only [List.mem_cons, List.not_mem_nil, or_false] at mem
  rcases mem with rfl | rfl | rfl | rfl | rfl | rfl
  · decide
  · decide
  · decide
  · decide
  · exact high
  · exact low

theorem hexWord?_control {c : Char} (control : c.toNat < 32) :
    hexWord? (byte '0') (byte '0') (byte (hexDigit (c.toNat / 16)))
      (byte (hexDigit (c.toNat % 16))) = some c.toNat := by
  have zero : hexValue? (byte '0') = some 0 := by decide
  have sum : c.toNat / 16 * 16 + c.toNat % 16 = c.toNat := by omega
  simp [hexWord?, zero, hexValue?_hexDigit (show c.toNat / 16 < 16 by omega),
    hexValue?_hexDigit (show c.toNat % 16 < 16 by omega), sum]

theorem codePoint_toNat (c : Char) : codePoint c.toNat = String.utf8EncodeChar c := by
  rw [codePoint, Char.ofNat_toNat, utf8_eq]
  simp [encode]

/-! ## Characters and texts -/

/-- An escape by one letter is passed over and read as its byte. -/
theorem quoted_letter {letter value : UInt8} (single : letter ≠ byte 'u')
    (stands : escaped? letter = some value) (rest : Bytes) :
    skipQuoted (byte '\\' :: letter :: rest) = skipQuoted rest ∧
      readQuoted (byte '\\' :: letter :: rest) = held [value] (readQuoted rest) := by
  have escape : byte '\\' ≠ byte '"' := by decide
  constructor
  · rw [skipQuoted.eq_def]
    simp only [if_neg escape, if_true, if_neg single, stands, Option.isSome_some]
  · rw [readQuoted.eq_def]
    simp only [if_neg escape, if_true, if_neg single, stands]

/-- An escape by number is passed over and read as the character with this number. -/
theorem quoted_numbered {h₁ h₂ h₃ h₄ : UInt8} {c : Char}
    (number : hexWord? h₁ h₂ h₃ h₄ = some c.toNat) (low : c.toNat < 0xD800) (rest : Bytes) :
    skipQuoted (byte '\\' :: byte 'u' :: h₁ :: h₂ :: h₃ :: h₄ :: rest) = skipQuoted rest ∧
      readQuoted (byte '\\' :: byte 'u' :: h₁ :: h₂ :: h₃ :: h₄ :: rest) =
        held (String.utf8EncodeChar c) (readQuoted rest) := by
  have escape : byte '\\' ≠ byte '"' := by decide
  constructor
  · rw [skipQuoted.eq_def]
    simp only [if_neg escape, if_true, number, Option.isSome_some]
  · have noLow : ¬ (0xDC00 ≤ c.toNat ∧ c.toNat ≤ 0xDFFF) := by omega
    have noHigh : ¬ (0xD800 ≤ c.toNat ∧ c.toNat ≤ 0xDBFF) := by omega
    rw [readQuoted.eq_def]
    simp only [if_neg escape, if_true, number, if_neg noLow, if_neg noHigh, codePoint_toNat]

/-- A character in quotes is passed over and read as itself. -/
theorem quoted_escapeChar (c : Char) (rest : Bytes) :
    skipQuoted (encode (escapeChar c) ++ rest) = skipQuoted rest ∧
      readQuoted (encode (escapeChar c) ++ rest) =
        held (String.utf8EncodeChar c) (readQuoted rest) := by
  by_cases named : c = '"' ∨ c = '\\' ∨ c = '\x08' ∨ c = '\x0c' ∨ c = '\n' ∨ c = '\r' ∨ c = '\t'
  · rcases named with rfl | rfl | rfl | rfl | rfl | rfl | rfl
    · exact quoted_letter (by decide) rfl rest
    · exact quoted_letter (by decide) rfl rest
    · exact quoted_letter (by decide) rfl rest
    · exact quoted_letter (by decide) rfl rest
    · exact quoted_letter (by decide) rfl rest
    · exact quoted_letter (by decide) rfl rest
    · exact quoted_letter (by decide) rfl rest
  · simp only [not_or] at named
    obtain ⟨quote, backslash, backspace, feed, line, carriage, tab⟩ := named
    rw [escapeChar, if_neg quote, if_neg backslash, if_neg backspace, if_neg feed, if_neg line,
      if_neg carriage, if_neg tab]
    by_cases control : c.toNat < 32
    · rw [if_pos control, encode_numbered control]
      exact quoted_numbered (hexWord?_control control) (by omega) rest
    · rw [if_neg control]
      have plain := plain_utf8EncodeChar quote backslash control
      have bytes : encode [c] = String.utf8EncodeChar c := by
        simp [encode]
      rw [bytes]
      exact ⟨skipQuoted_plain plain rest, readQuoted_plain plain rest⟩

/-- A quoted text is passed over and read as itself. -/
theorem quoted_flatMap (chars : List Char) (rest : Bytes) :
    skipQuoted (encode (chars.flatMap escapeChar) ++ byte '"' :: rest) = .ok rest ∧
      readQuoted (encode (chars.flatMap escapeChar) ++ byte '"' :: rest) =
        .ok (encode chars, rest) := by
  induction chars with
  | nil =>
      constructor
      · rw [List.flatMap_nil, encode_nil, List.nil_append, skipQuoted.eq_def]
        rfl
      · rw [List.flatMap_nil, encode_nil, List.nil_append, readQuoted.eq_def]
        rfl
  | cons c chars ih =>
      obtain ⟨skipped, read⟩ := quoted_escapeChar c
        (encode (chars.flatMap escapeChar) ++ byte '"' :: rest)
      rw [List.flatMap_cons, encode_append, List.append_assoc, skipped, read, ih.1, ih.2,
        encode_cons]
      exact ⟨rfl, rfl⟩

/-- The bytes of a text in quotes. -/
theorem encode_quote (text : String) (rest : Bytes) :
    encode (quote text) ++ rest =
      byte '"' :: (encode (text.toList.flatMap escapeChar) ++ byte '"' :: rest) := by
  rw [quote, encode_cons_of_lt (by decide), encode_append, encode_cons_of_lt (by decide)]
  simp [byte]

theorem skipQuoted_quote (text : String) (rest : Bytes) :
    skipQuoted (encode (text.toList.flatMap escapeChar) ++ byte '"' :: rest) = .ok rest :=
  (quoted_flatMap text.toList rest).1

theorem quotedText?_quote (text : String) (rest : Bytes) :
    quotedText? (encode (text.toList.flatMap escapeChar) ++ byte '"' :: rest) = some text := by
  rw [quotedText?, (quoted_flatMap text.toList rest).2]
  dsimp only
  rw [← utf8_eq, ofUtf8?_utf8]

end MediaHarvest.Json
