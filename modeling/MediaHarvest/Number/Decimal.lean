/-!
# Decimal numerals

Digits, and numerals with a fraction and an exponent.  A numeral is read exactly: as an integer
and the power of ten that scales it.
-/

namespace MediaHarvest.Number

/-- The value of a decimal digit. -/
def digitValue (c : Char) : Nat := c.toNat - 48

/-- The number that a run of digits writes. -/
def ofDigits (digits : List Char) : Nat :=
  digits.foldl (fun value c => 10 * value + digitValue c) 0

/-- Reads a nonempty run of digits and nothing else. -/
def natural? (chars : List Char) : Option Nat :=
  if chars ≠ [] ∧ chars.all Char.isDigit then some (ofDigits chars) else none

/-- Reads a nonempty run of digits, with an optional plus sign, below a bound. -/
def unsigned? (bound : Nat) (chars : List Char) : Option Nat := do
  let digits := match chars with
    | '+' :: rest => rest
    | _ => chars
  let value ← natural? digits
  guard (value < bound)
  return value

/-- The largest number of 64 bits. -/
def maxWord : Nat := 0xffffffffffffffff

/-- Reads a number of 64 bits. -/
def word? (chars : List Char) : Option UInt64 :=
  (unsigned? 0x10000000000000000 chars).map UInt64.ofNat

/-- Reads an integer of 64 bits with an optional sign. -/
def integer64? (chars : List Char) : Option Int :=
  match chars with
  | '-' :: digits => do
      let value ← natural? digits
      guard (value ≤ 0x8000000000000000)
      return -(value : Int)
  | _ => (unsigned? 0x8000000000000000 chars).map Int.ofNat

/-- The number of decimal digits, one for zero. -/
def digitCount (n : Nat) : Nat := (Nat.toDigits 10 n).length

/-- A numeral: `significand · 10 ^ exponent`, with its sign. -/
structure Decimal where
  /-- Whether a minus sign stands in front. -/
  negative : Bool
  significand : Nat
  /-- The power of ten that scales them. -/
  exponent : Int
deriving DecidableEq, Repr

/-- Reads the exponent of a numeral: nothing, or `e` with an optional sign and digits. -/
def exponent? : List Char → Option Int
  | [] => some 0
  | mark :: rest =>
      if mark = 'e' ∨ mark = 'E' then
        match rest with
        | '-' :: digits => (natural? digits).map fun n => -(n : Int)
        | '+' :: digits => (natural? digits).map Int.ofNat
        | digits => (natural? digits).map Int.ofNat
      else none

/-- Reads digits with an optional point among them and an optional exponent after them; at least
one digit has to stand before the exponent. -/
def magnitude? (chars : List Char) : Option (Nat × Int) := do
  let whole := chars.takeWhile Char.isDigit
  let rest := chars.dropWhile Char.isDigit
  let fraction := match rest with
    | '.' :: more => more.takeWhile Char.isDigit
    | _ => []
  let tail := match rest with
    | '.' :: more => more.dropWhile Char.isDigit
    | _ => rest
  guard (whole ≠ [] ∨ fraction ≠ [])
  let scale ← exponent? tail
  return (ofDigits (whole ++ fraction), scale - fraction.length)

/-- Reads a numeral with an optional sign. -/
def Decimal.read? (chars : List Char) : Option Decimal :=
  match chars with
  | '-' :: rest => (magnitude? rest).map fun m => ⟨true, m.1, m.2⟩
  | '+' :: rest => (magnitude? rest).map fun m => ⟨false, m.1, m.2⟩
  | _ => (magnitude? chars).map fun m => ⟨false, m.1, m.2⟩

end MediaHarvest.Number
