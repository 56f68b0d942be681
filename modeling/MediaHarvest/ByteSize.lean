import MediaHarvest.Json.Codec
import MediaHarvest.Number.Binary64
import MediaHarvest.Text.Blank
import MediaHarvest.Time.Span

/-!
# Sizes in bytes

Sizes are written for people: `"512KB"`, `"1.5M"`, `"2GiB"`.  A unit is a power of 1024, in either
case, with or without a blank before it.  A whole number of units is computed exactly and saturates
at 64 bits; a number with a point is rounded to 53 bits first.
-/

namespace MediaHarvest

open MediaHarvest.Number

/-- A count of bytes. -/
structure ByteSize where
  bytes : UInt64
deriving DecidableEq, Repr, Inhabited

/-- Why a text is not a size. -/
inductive SizeError where
  | empty
  /-- What stands before the unit is not a number. -/
  | invalidNumber (number : String)
  /-- What follows the digits is not a unit. -/
  | invalidUnit (unit : String)
deriving DecidableEq, Repr

/-- The wording of a refused size. -/
def SizeError.message : SizeError → String
  | .empty => "Empty size value"
  | .invalidNumber number => s!"Invalid number in size: {number}"
  | .invalidUnit unit => s!"Invalid unit: {unit}"

namespace ByteSize

/-- The exponent of two that an upper-case unit stands for. -/
def unitExponent? (unit : String) : Option Nat :=
  if unit = "" ∨ unit = "B" then some 0
  else if unit = "K" ∨ unit = "KB" ∨ unit = "KIB" then some 10
  else if unit = "M" ∨ unit = "MB" ∨ unit = "MIB" then some 20
  else if unit = "G" ∨ unit = "GB" ∨ unit = "GIB" then some 30
  else if unit = "T" ∨ unit = "TB" ∨ unit = "TIB" then some 40
  else none

/-- Whether a character belongs to the number in front. -/
def isNumberChar (c : Char) : Bool := c.isDigit || c = '.'

/-- The size of a decimal number of units: rounded to 53 bits, scaled by the unit, cut to an
integer, and held within 64 bits. -/
def ofFraction? (number : List Char) (exponent : Nat) : Option Nat := do
  let decimal ← Decimal.read? number
  match Binary64.ofDecimal? decimal.significand decimal.exponent with
  | none => return maxWord
  | some magnitude =>
      let scaled : Binary64 := ⟨magnitude.significand, magnitude.exponent + exponent⟩
      return min scaled.floor maxWord

/-- Reads a size. -/
def parse (text : String) : Except SizeError ByteSize :=
  let chars := (Text.upper (Text.trim text)).toList
  if chars = [] then .error .empty
  else
    let number := chars.takeWhile isNumberChar
    let unit := chars.dropWhile isNumberChar
    match unitExponent? (Text.trim (String.ofList unit)) with
    | none => .error (.invalidUnit (String.ofList unit))
    | some exponent =>
        match word? number with
        | some whole => .ok ⟨UInt64.ofNat (min (whole.toNat * Nat.pow 2 exponent) maxWord)⟩
        | none =>
            match ofFraction? number exponent with
            | some bytes => .ok ⟨UInt64.ofNat bytes⟩
            | none => .error (.invalidNumber (String.ofList number))

/-- The units in which sizes are shown, largest first, with their exponents of two. -/
def units : List (String × Nat) := [("TB", 40), ("GB", 30), ("MB", 20), ("KB", 10)]

/-- The text of a size: in the largest unit that is not above it, with one decimal unless that is
zero, and cut rather than rounded.  The tenths are computed in 64 bits; where the product with ten
overflows there is no text. -/
def text? (size : ByteSize) : Option String :=
  match units.find? fun unit => Nat.pow 2 unit.2 ≤ size.bytes.toNat with
  | some (unit, exponent) =>
      if maxWord < size.bytes.toNat * 10 then none
      else
        let tenths := size.bytes * 10 / UInt64.ofNat (Nat.pow 2 exponent)
        if tenths % 10 = 0 then some s!"{tenths / 10}{unit}"
        else some s!"{tenths / 10}.{tenths % 10}{unit}"
  | none => some s!"{size.bytes}B"

/-- The average rate over a span, in bytes per second; a span below a millisecond counts as one. -/
def rateOver (size : ByteSize) (elapsed : Span) : UInt64 :=
  UInt64.ofNat (size.bytes.toNat * 1000 / max elapsed.millis 1)

/-- What a size is given as. -/
def expected : String := "a byte size as integer or string (e.g. \"64KB\")"

/-- Reads a size from a number or a text. -/
def decode : Json.Decoder ByteSize
  | _, .number (some (.integer value)) =>
      if 0 ≤ value then pure ⟨UInt64.ofNat value.toNat⟩
      else throw (.data (.content "byte size must not be negative"))
  | _, .text (some text) =>
      match parse text with
      | .ok size => pure size
      | .error error => throw (.data (.content error.message))
  | .text, .list true _ _ => throw .malformed
  | .text, .record true _ _ => throw .malformed
  | _, tree => Json.mismatch expected tree

def codec : Json.Codec ByteSize := ⟨fun size => .natural size.bytes.toNat, decode⟩

end ByteSize

end MediaHarvest
