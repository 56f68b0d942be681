import MediaHarvest.Proofs.Json.Quoted
import MediaHarvest.Proofs.Number.Digits
import Mathlib.Algebra.Group.Int.Defs
import Mathlib.Algebra.Group.Nat.Defs

/-!
# Reading back numbers and literals

A number ends at the first byte that cannot go on with it; what follows a value in a text is the
end, a comma or a closing bracket, and none of them does.
-/

namespace MediaHarvest.Json

open MediaHarvest.Number MediaHarvest.Text

/-- What may follow a value. -/
def Follows (rest : Bytes) : Prop :=
  ∀ b ∈ rest.head?, b = byte ',' ∨ b = byte ']' ∨ b = byte '\x7d'

theorem follows_nil : Follows [] := by
  simp [Follows]

theorem follows_cons {b : UInt8} (closes : b = byte ',' ∨ b = byte ']' ∨ b = byte '\x7d')
    (rest : Bytes) : Follows (b :: rest) := by
  rintro _ ⟨⟩
  exact closes

/-! ## Digits -/

/-- A decimal digit is one byte, with the same value. -/
theorem digit_toUInt8 {c : Char} (digit : c.isDigit = true) :
    isDigit c.toUInt8 = true ∧ c.toUInt8.toNat - 48 = digitValue c ∧ c.toNat < 128 := by
  have range : 48 ≤ c.toNat ∧ c.toNat ≤ 57 := by
    simp only [Char.isDigit, Bool.and_eq_true, decide_eq_true_eq] at digit
    exact ⟨digit.1, digit.2⟩
  have value : c.toUInt8.toNat = c.toNat := by
    rw [Char.toUInt8, UInt32.toNat_toUInt8]
    exact Nat.mod_eq_of_lt (by show c.toNat < 2 ^ 8; omega)
  refine ⟨?_, by rw [value, digitValue], by omega⟩
  simp only [isDigit, Bool.and_eq_true, decide_eq_true_eq, UInt8.le_iff_toNat_le, value]
  exact range

theorem le_foldl_digits (chars : List Char) (start : Nat) :
    start ≤ chars.foldl (fun value c => 10 * value + digitValue c) start := by
  induction chars generalizing start with
  | nil => exact Nat.le_refl _
  | cons c chars ih =>
      have next : start ≤ 10 * start + digitValue c := by omega
      exact Nat.le_trans next (ih _)

/-- Digits of a number within 64 bits are all taken. -/
theorem takeDigits_map {chars : List Char} (digits : ∀ c ∈ chars, c.isDigit = true) {start : Nat}
    (fits : chars.foldl (fun value c => 10 * value + digitValue c) start ≤ maxWord) :
    takeDigits start (chars.map Char.toUInt8) =
      (chars.foldl (fun value c => 10 * value + digitValue c) start, 0) := by
  induction chars generalizing start with
  | nil => rfl
  | cons c chars ih =>
      have value := (digit_toUInt8 (digits c List.mem_cons_self)).2.1
      have within : ¬ maxWord < 10 * start + digitValue c :=
        Nat.not_lt.2 (Nat.le_trans (le_foldl_digits chars _) fits)
      rw [List.map_cons, takeDigits, value, if_neg within]
      exact ih (fun c mem => digits c (List.mem_cons_of_mem _ mem)) fits

/-- The bytes of the digits of a number. -/
def numeralBytes (n : Nat) : Bytes := (Nat.toDigits 10 n).map Char.toUInt8

theorem encode_toDigits (n : Nat) : encode (Nat.toDigits 10 n) = numeralBytes n :=
  encode_of_forall_lt fun c mem => (digit_toUInt8 (isDigit_toDigits n c mem)).2.2

theorem digits_numeralBytes (n : Nat) {rest : Bytes} (follows : Follows rest) :
    digits (numeralBytes n ++ rest) = (numeralBytes n, rest) := by
  have all : ∀ b ∈ numeralBytes n, isDigit b = true := by
    intro b mem
    obtain ⟨c, digit, rfl⟩ := List.mem_map.1 mem
    exact (digit_toUInt8 (isDigit_toDigits n c digit)).1
  rw [digits, List.takeWhile_append_of_pos all, List.dropWhile_append_of_pos all]
  cases rest with
  | nil => simp
  | cons b rest =>
      have stop : isDigit b = false := by
        rcases follows b rfl with rfl | rfl | rfl <;> decide
      simp [stop]

/-- The digits of a number start with a digit, which is zero only for a single one. -/
theorem numeralBytes_eq_cons (n : Nat) :
    ∃ first more, numeralBytes n = first :: more ∧ isDigit first = true ∧
      ¬ (first = byte '0' ∧ more ≠ []) := by
  cases found : Nat.toDigits 10 n with
  | nil => exact absurd found Nat.toDigits_ne_nil
  | cons c chars =>
      have digit := digit_toUInt8 (isDigit_toDigits n c (by rw [found]; exact List.mem_cons_self))
      refine ⟨c.toUInt8, chars.map Char.toUInt8, by rw [numeralBytes, found, List.map_cons],
        digit.1, ?_⟩
      rintro ⟨zero, more⟩
      have value : digitValue c = 0 := by
        rw [← digit.2.1, zero]
        rfl
      have low : 48 ≤ c.toNat := by
        have range := isDigit_toDigits n c (by rw [found]; exact List.mem_cons_self)
        simp only [Char.isDigit, Bool.and_eq_true, decide_eq_true_eq] at range
        exact range.1
      have char : c = '0' := by
        apply Char.toNat_inj.1
        rw [digitValue] at value
        show c.toNat = 48
        omega
      have none : n = 0 := (head?_toDigits (show 1 < 10 by decide) n).1
        (by rw [found, char]; rfl)
      subst none
      rw [Nat.toDigits_zero] at found
      cases found
      exact more rfl

/-- The digits of a number within 64 bits are taken as that number. -/
theorem takeDigits_numeralBytes {n : Nat} (fits : n ≤ maxWord) :
    takeDigits 0 (numeralBytes n) = (n, 0) := by
  have value : (Nat.toDigits 10 n).foldl (fun value c => 10 * value + digitValue c) 0 = n :=
    ofDigits_toDigits n
  have taken := takeDigits_map (isDigit_toDigits n) (by rw [value]; exact fits)
  rwa [value] at taken

/-- Digits that are not gone on with are a whole number. -/
theorem readNumber_numeralBytes (negative : Bool) (n : Nat) {rest : Bytes}
    (follows : Follows rest) :
    readNumber negative (numeralBytes n ++ rest) =
      (.number (numeral? negative (numeralBytes n) [] none), some rest) := by
  obtain ⟨first, more, found, _, single⟩ := numeralBytes_eq_cons n
  rw [readNumber, digits_numeralBytes n follows, found]
  dsimp only
  rw [if_neg single]
  cases rest with
  | nil => rfl
  | cons b rest =>
      have closes := follows b rfl
      have point : b ≠ byte '.' := by
        rcases closes with rfl | rfl | rfl <;> decide
      have exponent : ¬ (b = byte 'e' ∨ b = byte 'E') := by
        rcases closes with rfl | rfl | rfl <;> decide
      dsimp only
      rw [if_neg point, readExponent.eq_def]
      dsimp only
      rw [if_neg exponent]

/-- An integer is read back within the bounds of 64 bits, signed or unsigned. -/
theorem readScalar_number {value : Int} (low : -2 ^ 63 ≤ value) (high : value < 2 ^ 64)
    {rest : Bytes} (follows : Follows rest) :
    readScalar (encode (toString value).toList ++ rest) =
      (.number (some (.integer value)), some rest) := by
  cases value with
  | ofNat n =>
      have fits : n ≤ maxWord := by
        rw [Int.ofNat_eq_natCast] at high
        rw [maxWord]
        omega
      have chars : (toString (Int.ofNat n)).toList = Nat.toDigits 10 n := by
        show (toString n).toList = _
        simp
      have whole : numeral? false (numeralBytes n) [] none = some (.integer n) := by
        simp [numeral?, takeDigits_numeralBytes fits]
      have number := readNumber_numeralBytes false n follows
      rw [whole] at number
      rw [chars, encode_toDigits]
      obtain ⟨first, more, found, digit, _⟩ := numeralBytes_eq_cons n
      have other {b : UInt8} (no : isDigit b = false) : first ≠ b := by
        rintro rfl
        rw [digit] at no
        cases no
      rw [found, List.cons_append] at number ⊢
      rw [readScalar, if_neg (other (by decide)), if_neg (other (by decide)),
        if_neg (other (by decide)), if_neg (other (by decide)), if_neg (other (by decide)),
        if_pos digit, number]
      rfl
  | negSucc n =>
      have fits : n + 1 ≤ maxWord := by
        rw [maxWord]
        omega
      have chars : (toString (Int.negSucc n)).toList = '-' :: Nat.toDigits 10 (n + 1) := by
        show ("-" ++ toString (n + 1)).toList = _
        simp
      have range : ¬ (n + 1 = 0 ∨ 0x8000000000000000 < n + 1) := by
        omega
      have whole : numeral? true (numeralBytes (n + 1)) [] none =
          some (.integer (Int.negSucc n)) := by
        rw [numeral?, takeDigits_numeralBytes fits]
        dsimp only
        rw [if_pos ⟨rfl, rfl⟩, if_neg (Nat.lt_irrefl 0), if_pos rfl, if_neg range]
        rfl
      have number := readNumber_numeralBytes true (n + 1) follows
      rw [whole] at number
      rw [chars, encode_cons_of_lt (by decide), encode_toDigits, List.cons_append]
      exact number

/-- The text of an integer starts with a digit or a minus sign. -/
theorem encode_toString_eq_cons (value : Int) :
    ∃ first more, encode (toString value).toList = first :: more ∧
      (isDigit first = true ∨ first = byte '-') := by
  cases value with
  | ofNat n =>
      obtain ⟨first, more, found, digit, _⟩ := numeralBytes_eq_cons n
      have chars : (toString (Int.ofNat n)).toList = Nat.toDigits 10 n := by
        show (toString n).toList = _
        simp
      exact ⟨first, more, by rw [chars, encode_toDigits, found], .inl digit⟩
  | negSucc n =>
      have chars : (toString (Int.negSucc n)).toList = '-' :: Nat.toDigits 10 (n + 1) := by
        show ("-" ++ toString (n + 1)).toList = _
        simp
      exact ⟨byte '-', _, by rw [chars, encode_cons_of_lt (by decide)]; rfl, .inr rfl⟩

theorem not_isSpace_of_isDigit {b : UInt8} (digit : isDigit b = true) : isSpace b = false := by
  by_contra space
  simp only [isSpace, Bool.not_eq_false, Bool.or_eq_true, beq_iff_eq] at space
  rcases space with ((rfl | rfl) | rfl) | rfl <;> cases digit

/-! ## Literals -/

theorem readScalar_null (rest : Bytes) :
    readScalar (encode Value.null.chars ++ rest) = (.null, some rest) := rfl

theorem readScalar_bool (value : Bool) (rest : Bytes) :
    readScalar (encode (Value.bool value).chars ++ rest) = (.bool value, some rest) := by
  cases value <;> rfl

/-- A text in quotes is read back. -/
theorem readScalar_quote (text : String) (rest : Bytes) :
    readScalar (encode (quote text) ++ rest) = (.text (some text), some rest) := by
  rw [encode_quote]
  show readText _ = _
  rw [readText, skipQuoted_quote, quotedText?_quote]

end MediaHarvest.Json
