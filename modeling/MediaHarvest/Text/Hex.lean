import MediaHarvest.Text.Bytes

/-!
# Hexadecimal text

Bytes are shown as two lower-case hexadecimal digits each.
-/

namespace MediaHarvest.Text

/-- The value of a hexadecimal digit, in either case. -/
def hexValue? (digit : UInt8) : Option Nat :=
  if 48 ≤ digit ∧ digit ≤ 57 then some (digit.toNat - 48)
  else if 97 ≤ digit ∧ digit ≤ 102 then some (digit.toNat - 87)
  else if 65 ≤ digit ∧ digit ≤ 70 then some (digit.toNat - 55)
  else none

/-- The lower-case digit of a value below sixteen. -/
def hexDigit (value : Nat) : Char :=
  if value < 10 then Char.ofNat (48 + value) else Char.ofNat (87 + value)

/-- Two digits for each byte. -/
def hex (bytes : Bytes) : String :=
  String.ofList (bytes.flatMap fun byte => [hexDigit (byte.toNat / 16), hexDigit (byte.toNat % 16)])

/-- Reads two digits for each byte; refuses an odd count and anything that is not a digit. -/
def unhex? : Bytes → Option Bytes
  | [] => some []
  | [_] => none
  | high :: low :: rest => do
      let h ← hexValue? high
      let l ← hexValue? low
      let bytes ← unhex? rest
      return UInt8.ofNat (16 * h + l) :: bytes

/-- The digits of a number in base sixteen, without leading zeros. -/
def hexNumeral (value : Nat) : String :=
  String.ofList (Nat.toDigits 16 value)

end MediaHarvest.Text
