import MediaHarvest.Wire.Message
import Mathlib.Algebra.Group.Nat.Defs

/-!
# Reading back keys, lengths and parts

A reader that takes what was written off the front of some bytes leaves the rest as it is.
`Consumes` says that a step, taken several times, uses up a front of the bytes; `readWhile` and
`readParts` then stop exactly behind it.
-/

namespace MediaHarvest.Wire

/-- Going from `value` to `final` by steps that take the bytes in front of `rest` off, each at least
one of them. -/
inductive Consumes {α : Type} (step : α → Reader α) : α → Bytes → α → Bytes → Prop where
  | done (value : α) (bytes : Bytes) : Consumes step value bytes value bytes
  | next {value middle final : α} {bytes left rest : Bytes}
      (taken : step value bytes = .ok (middle, left)) (shorter : left.length < bytes.length)
      (others : Consumes step middle left final rest) : Consumes step value bytes final rest

namespace Consumes

variable {α : Type} {step : α → Reader α}

/-- Two runs after one another are a run. -/
theorem trans {value middle final : α} {bytes left rest : Bytes}
    (first : Consumes step value bytes middle left)
    (second : Consumes step middle left final rest) :
    Consumes step value bytes final rest := by
  induction first with
  | done => exact second
  | next taken shorter _ ih => exact .next taken shorter (ih second)

/-- A run leaves no more bytes than there were. -/
theorem length_le {value final : α} {bytes rest : Bytes}
    (run : Consumes step value bytes final rest) : rest.length ≤ bytes.length := by
  induction run with
  | done => exact Nat.le_refl _
  | next _ shorter _ ih => exact Nat.le_trans ih (Nat.le_of_lt shorter)

/-- Reading up to a limit makes the run that ends there. -/
theorem readWhile_eq {value final : α} {bytes rest : Bytes}
    (run : Consumes step value bytes final rest) (fuel : Nat)
    (enough : bytes.length < fuel + rest.length) :
    readWhile rest.length step fuel value bytes = .ok (final, rest) := by
  induction run generalizing fuel with
  | done value bytes =>
      obtain ⟨fuel, rfl⟩ : ∃ left, fuel = left + 1 := ⟨fuel - 1, by omega⟩
      simp [readWhile]
  | @next value middle final bytes left rest taken shorter others ih =>
      have tail := others.length_le
      obtain ⟨fuel, rfl⟩ : ∃ left, fuel = left + 1 := ⟨fuel - 1, by omega⟩
      have more : ¬ bytes.length ≤ rest.length := by omega
      rw [readWhile, if_neg more, taken]
      exact ih _ (by omega)

end Consumes

/-! ## Numbers and keys -/

@[simp]
theorem readNumber_write (number : UInt64) (rest : Bytes) :
    readNumber (Varint.write number ++ rest) = .ok (number, rest) := by
  simp [readNumber]

/-- A number takes at least one byte. -/
theorem Varint.write_ne_nil (number : UInt64) : Varint.write number ≠ [] := by
  rw [Varint.write, Varint.groups]
  split <;> simp

@[simp]
theorem Form.ofCode?_code (form : Form) : Form.ofCode? form.code = some form := by
  cases form <;> rfl

theorem Form.code_lt (form : Form) : form.code < 8 := by
  cases form <;> decide

/-- The keys of fields with small numbers are read back. -/
theorem readKey_key {number : Nat} (positive : 0 < number) (small : number < 2 ^ 29)
    (form : Form) (rest : Bytes) :
    readKey (key number form ++ rest) = .ok ((number, form), rest) := by
  have code := form.code_lt
  have value : (UInt64.ofNat (number * 8 + form.code)).toNat = number * 8 + form.code := by
    rw [UInt64.toNat_ofNat']
    omega
  have form_eq : (number * 8 + form.code) % 8 = form.code := by omega
  have number_eq : (number * 8 + form.code) / 8 = number := by omega
  have within : ¬ 0x100000000 ≤ number * 8 + form.code := by omega
  rw [readKey, key, readNumber_write]
  simp only [bind, Except.bind, value, form_eq, number_eq, Form.ofCode?_code]
  rw [if_neg within, if_neg (by omega)]

/-! ## Lengths -/

/-- A length below the bound of a word is read back. -/
theorem readNumber_delimited {content : Bytes} (fits : content.length < 2 ^ 64) (rest : Bytes) :
    readNumber (delimited content ++ rest) =
      .ok (UInt64.ofNat content.length, content ++ rest) ∧
      (UInt64.ofNat content.length).toNat = content.length := by
  constructor
  · rw [delimited, List.append_assoc, readNumber_write]
  · rw [UInt64.toNat_ofNat']
    exact Nat.mod_eq_of_lt fits

/-- Parts that fill their length are read one after another. -/
theorem readParts_delimited {α : Type} {step : α → Reader α} {value final : α} {content : Bytes}
    (fits : content.length < 2 ^ 64) (rest : Bytes)
    (run : Consumes step value (content ++ rest) final rest) :
    readParts step value (delimited content ++ rest) = .ok (final, rest) := by
  obtain ⟨length, length_eq⟩ := readNumber_delimited fits rest
  have enough : ¬ (content ++ rest).length < content.length := by simp
  have limit : (content ++ rest).length - content.length = rest.length := by simp
  have whole := run.readWhile_eq ((content ++ rest).length + 1) (by omega)
  rw [readParts, length]
  simp only [bind, Except.bind, length_eq]
  rw [if_neg enough, limit, whole]
  simp [pure, Except.pure]

theorem readDelimited_delimited {content : Bytes} (fits : content.length < 2 ^ 64)
    (rest : Bytes) : readDelimited (delimited content ++ rest) = .ok (content, rest) := by
  obtain ⟨length, length_eq⟩ := readNumber_delimited fits rest
  have enough : ¬ (content ++ rest).length < content.length := by simp
  rw [readDelimited, length]
  simp only [bind, Except.bind, length_eq]
  rw [if_neg enough, List.take_left, List.drop_left]
  rfl

/-- A text is read back from its bytes. -/
theorem readText_delimited {text : String} (fits : (Text.utf8 text).length < 2 ^ 64)
    (rest : Bytes) :
    readText .lengthDelimited (delimited (Text.utf8 text) ++ rest) = .ok (text, rest) := by
  rw [readText, readDelimited_delimited fits]
  simp [expectForm, bind, Except.bind, pure, Except.pure]

end MediaHarvest.Wire
