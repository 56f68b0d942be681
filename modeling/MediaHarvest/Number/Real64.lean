import MediaHarvest.Number.Binary64

/-!
# Numbers of 64 bits with a sign

Finite binary64 numbers with their sign, the infinities, and what is not a number.  A text stands
for the number nearest to it; rounding to a word stops at the ends of its range.
-/

namespace MediaHarvest.Number

/-- A binary64 number. -/
inductive Real64 where
  | finite (negative : Bool) (magnitude : Binary64)
  | infinite (negative : Bool)
  | undefined
deriving DecidableEq, Repr

namespace Real64

/-- The number nearest to a decimal one; an infinity if that is beyond all finite ones. -/
def ofDecimal (decimal : Decimal) : Real64 :=
  match Binary64.ofDecimal? decimal.significand decimal.exponent with
  | some magnitude => finite decimal.negative magnitude
  | none => infinite decimal.negative

/-- Reads the name of an infinity or of what is not a number, in any case of its letters. -/
def named? (negative : Bool) (chars : List Char) : Option Real64 :=
  match String.ofList (chars.map Char.toLower) with
  | "inf" | "infinity" => some (infinite negative)
  | "nan" => some undefined
  | _ => none

/-- Reads a number. -/
def parse? (chars : List Char) : Option Real64 :=
  match Decimal.read? chars with
  | some decimal => some (ofDecimal decimal)
  | none =>
      match chars with
      | '-' :: rest => named? true rest
      | '+' :: rest => named? false rest
      | _ => named? false chars

/-- The sign as it stands before a number. -/
def signText (negative : Bool) : String := if negative then "-" else ""

/-- The number as a plain decimal. -/
def plainText : Real64 → String
  | finite negative magnitude => signText negative ++ magnitude.plainText
  | infinite negative => signText negative ++ "inf"
  | undefined => "NaN"

/-- The number as a decimal with a point; what is not finite has none. -/
def pointedText (number : Real64) : String :=
  match number with
  | finite .. =>
      let text := number.plainText
      if text.contains '.' then text else text ++ ".0"
  | _ => number.plainText

/-- The nearest word, a half away from zero. -/
def toWord : Real64 → UInt64
  | finite false magnitude => UInt64.ofNat (min magnitude.round maxWord)
  | infinite false => UInt64.ofNat maxWord
  | _ => 0

end Real64

end MediaHarvest.Number
