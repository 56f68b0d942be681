import MediaHarvest.Text.Hex

/-!
# Percent signs

A byte that may not stand for itself is written as a percent sign and two hexadecimal digits.
Reading takes percent signs that no two digits follow as they are.
-/

namespace MediaHarvest.Percent

/-- The upper-case digit of a value below sixteen. -/
def digit (value : Nat) : Char := (Text.hexDigit value).toUpper

/-- A percent sign and two digits. -/
def escape (byte : UInt8) : List Char :=
  ['%', digit (byte.toNat / 16), digit (byte.toNat % 16)]

/-- The UTF-8 bytes of a character. -/
def bytesOf (c : Char) : Bytes := Text.utf8 (String.singleton c)

/-- Writes the characters that have to be escaped by their bytes. -/
def encode (escaped : Char → Bool) (chars : List Char) : List Char :=
  chars.flatMap fun c => if escaped c then (bytesOf c).flatMap escape else [c]

/-- Replaces percent signs with two digits by their bytes. -/
def decode : Bytes → Bytes
  | 37 :: high :: low :: rest =>
      match Text.hexValue? high, Text.hexValue? low with
      | some h, some l => UInt8.ofNat (16 * h + l) :: decode rest
      | _, _ => 37 :: decode (high :: low :: rest)
  | byte :: rest => byte :: decode rest
  | [] => []

end MediaHarvest.Percent
