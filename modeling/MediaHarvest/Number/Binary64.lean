import MediaHarvest.Number.Decimal

/-!
# Rounding to 53 bits

Finite binary64 magnitudes as exact dyadic numbers `significand · 2 ^ exponent`.  A quotient is
rounded to the nearest of them, a tie to the even significand; the text of one is the shortest run
of digits that rounds back to it.  Everything is computed in natural numbers.
-/

namespace MediaHarvest.Number

/-- A finite binary64 magnitude, `significand · 2 ^ exponent`. -/
structure Binary64 where
  significand : Nat
  exponent : Int
deriving DecidableEq, Repr

/-- The quotient, rounded to the nearest integer, a tie to the even one. -/
def roundDiv (num den : Nat) : Nat :=
  let quotient := num / den
  let rest := num % den
  if den < 2 * rest ∨ (2 * rest = den ∧ quotient % 2 = 1) then quotient + 1 else quotient

/-- The exponent of the power of two at or below a positive quotient. -/
def floorLog2 (num den : Nat) : Int :=
  let guess : Int := (num.log2 : Int) - den.log2
  let reached :=
    if 0 ≤ guess then den * Nat.pow 2 guess.toNat ≤ num else den ≤ num * Nat.pow 2 (-guess).toNat
  if reached then guess else guess - 1

/-- The exponent of the power of ten at or below a positive quotient, from a guess above it. -/
def floorLog10 (num den : Nat) : Int :=
  let digits : Int := (digitCount num : Int) - digitCount den
  let reached :=
    if 0 ≤ digits then den * Nat.pow 10 digits.toNat ≤ num
    else den ≤ num * Nat.pow 10 (-digits).toNat
  if reached then digits else digits - 1

namespace Binary64

/-- Zero. -/
def zero : Binary64 := ⟨0, 0⟩

/-- The magnitude as a quotient. -/
def quotient (x : Binary64) : Nat × Nat :=
  if 0 ≤ x.exponent then (x.significand * Nat.pow 2 x.exponent.toNat, 1)
  else (x.significand, Nat.pow 2 (-x.exponent).toNat)

/-- The magnitude nearest to a quotient; none if that is beyond the largest finite one. -/
def nearest? (num den : Nat) : Option Binary64 :=
  if num = 0 then some zero
  else
    let exponent := max (floorLog2 num den - 52) (-1074)
    let significand :=
      if 0 ≤ exponent then roundDiv num (den * Nat.pow 2 exponent.toNat)
      else roundDiv (num * Nat.pow 2 (-exponent).toNat) den
    if 971 < exponent ∨ (exponent = 971 ∧ 0x20000000000000 ≤ significand) then none
    else some ⟨significand, exponent⟩

/-- The magnitude nearest to an integer. -/
def ofNat? (n : Nat) : Option Binary64 := nearest? n 1

/-- The rounded product. -/
def mul? (x y : Binary64) : Option Binary64 :=
  nearest? (x.quotient.1 * y.quotient.1) (x.quotient.2 * y.quotient.2)

/-- The rounded quotient of two magnitudes, the second positive. -/
def div? (x y : Binary64) : Option Binary64 :=
  nearest? (x.quotient.1 * y.quotient.2) (x.quotient.2 * y.quotient.1)

/-- The magnitude nearest to a decimal one.  Exponents far outside the range are settled without
computing the power of ten. -/
def ofDecimal? (significand : Nat) (exponent : Int) : Option Binary64 :=
  if significand = 0 then some zero
  else
    let top := exponent + digitCount significand
    if 310 < top then none
    else if top < -330 then some zero
    else if 0 ≤ exponent then nearest? (significand * Nat.pow 10 exponent.toNat) 1
    else nearest? significand (Nat.pow 10 (-exponent).toNat)

/-- The integer part. -/
def floor (x : Binary64) : Nat := x.quotient.1 / x.quotient.2

/-- The nearest integer, a half away from zero. -/
def round (x : Binary64) : Nat := (2 * x.quotient.1 + x.quotient.2) / (2 * x.quotient.2)

/-- The decimal numbers `d · 10 ^ unit` next to a quotient that lie in the interval around `x`
whose numbers round to `x`, the nearer first. -/
def candidates (x : Binary64) (unit : Int) : List Nat :=
  -- Everything is scaled to quarters of the last binary place and to the decimal unit.
  let scaleNum := if 0 ≤ x.exponent then Nat.pow 2 x.exponent.toNat else 1
  let scaleDen := if 0 ≤ x.exponent then 4 else 4 * Nat.pow 2 (-x.exponent).toNat
  let unitNum := if 0 ≤ unit then Nat.pow 10 unit.toNat else 1
  let unitDen := if 0 ≤ unit then 1 else Nat.pow 10 (-unit).toNat
  let inUnits (quarters : Nat) : Nat := quarters * scaleNum * unitDen
  let one := scaleDen * unitNum
  let atBoundary := x.significand = 0x10000000000000 ∧ -1074 < x.exponent
  let low := inUnits (4 * x.significand - if atBoundary then 1 else 2)
  let high := inUnits (4 * x.significand + 2)
  let value := inUnits (4 * x.significand)
  let inside (d : Nat) : Bool :=
    if x.significand % 2 = 0 then low ≤ d * one && d * one ≤ high
    else low < d * one && d * one < high
  let below := value / one
  let above := below + 1
  let ordered :=
    if value - below * one ≤ above * one - value then [below, above] else [above, below]
  ordered.filter fun d => inside d && d != 0

/-- The shortest digits that round back to a positive `x`, with the exponent of the last one. -/
def shortest (x : Binary64) : Nat × Int :=
  let top := floorLog10 x.quotient.1 x.quotient.2
  let found := (List.range 17).findSome? fun (count : Nat) =>
    let unit : Int := top - (count : Nat)
    (x.candidates unit).head?.map fun digits => (digits, unit)
  found.getD (0, 0)

end Binary64

/-- Drops the zeros at the end of a significand, raising the exponent. -/
def stripZeros : Nat → Nat → Int → Nat × Int
  | 0, digits, exponent => (digits, exponent)
  | fuel + 1, digits, exponent =>
      if digits ≠ 0 ∧ digits % 10 = 0 then stripZeros fuel (digits / 10) (exponent + 1)
      else (digits, exponent)

/-- The decimal text of a magnitude without exponent; `point` is put behind an integer. -/
def positional (digits : Nat) (exponent : Int) (point : String) : String :=
  if 0 ≤ exponent then
    toString digits ++ String.ofList (List.replicate exponent.toNat '0') ++ point
  else
    let places := (-exponent).toNat
    let text := (toString digits).toList
    let padded := List.replicate (places + 1 - text.length) '0' ++ text
    let cut := padded.length - places
    String.ofList (padded.take cut ++ '.' :: padded.drop cut)

/-- The text of a magnitude in messages: the shortest digits, positional from `0.00001` up to
sixteen digits before the point, otherwise with a signed exponent of at least two digits. -/
def Binary64.text (x : Binary64) : String :=
  if x.significand = 0 then "0.0"
  else
    let (raw, unit) := x.shortest
    let (digits, exponent) := stripZeros 20 raw unit
    let top := exponent + (digitCount digits - 1 : Nat)
    if -5 ≤ top ∧ top ≤ 15 then positional digits exponent ".0"
    else
      let mantissa := match (toString digits).toList with
        | first :: second :: rest => String.ofList (first :: '.' :: second :: rest)
        | short => String.ofList short
      let size := toString top.natAbs
      let padded := if size.length < 2 then "0" ++ size else size
      mantissa ++ "e" ++ (if top < 0 then "-" else "+") ++ padded

/-- The text of a magnitude as a plain decimal, without exponent and without a bare point. -/
def Binary64.plainText (x : Binary64) : String :=
  if x.significand = 0 then "0"
  else
    let (raw, unit) := x.shortest
    let (digits, exponent) := stripZeros 20 raw unit
    positional digits exponent ""

end MediaHarvest.Number
