import MediaHarvest.Number.Real64
import MediaHarvest.Time.Instant

/-!
# TOML scalars

Integers, numbers, dates and times of day.  A run of digits may hold single underscores between
its digits.  What a scalar is follows from its text alone.
-/

namespace MediaHarvest.Toml

open MediaHarvest.Number

/-- Drops the underscores of a run of digits; every one has to stand between two digits. -/
def plainDigits? (isDigit : Char → Bool) : List Char → Option (List Char)
  | [] => none
  | [c] => if isDigit c then some [c] else none
  | c :: '_' :: rest => do
      guard (isDigit c)
      return c :: (← plainDigits? isDigit rest)
  | c :: rest => do
      guard (isDigit c)
      return c :: (← plainDigits? isDigit rest)

/-- Splits off a sign. -/
def signed (chars : List Char) : Bool × List Char :=
  match chars with
  | '-' :: rest => (true, rest)
  | '+' :: rest => (false, rest)
  | _ => (false, chars)

/-- Reads a run of digits without needless zeros in front. -/
def whole? (chars : List Char) : Option (List Char) := do
  let digits ← plainDigits? Char.isDigit chars
  guard (digits.head? ≠ some '0' ∨ digits.length = 1)
  return digits

/-! ## Integers -/

/-- The value of a digit of any base up to sixteen. -/
def baseDigit? (base : Nat) (c : Char) : Option Nat :=
  let value :=
    if c.isDigit then c.toNat - 48
    else if 'a' ≤ c ∧ c ≤ 'f' then c.toNat - 87
    else if 'A' ≤ c ∧ c ≤ 'F' then c.toNat - 55
    else 16
  if value < base then some value else none

/-- Reads digits of a base. -/
def ofBase? (base : Nat) (chars : List Char) : Option Int := do
  let digits ← plainDigits? (fun c => (baseDigit? base c).isSome) chars
  let value := digits.foldl (fun value c => base * value + (baseDigit? base c).getD 0) 0
  guard (value < 0x8000000000000000)
  return value

/-- Reads an integer of 64 bits. -/
def integer? (chars : List Char) : Option Int :=
  match chars with
  | '0' :: 'x' :: rest => ofBase? 16 rest
  | '0' :: 'o' :: rest => ofBase? 8 rest
  | '0' :: 'b' :: rest => ofBase? 2 rest
  | _ => do
      let (negative, rest) := signed chars
      let value := ofDigits (← whole? rest)
      if negative then
        guard (value ≤ 0x8000000000000000)
        return -(value : Int)
      else
        guard (value < 0x8000000000000000)
        return value

/-! ## Numbers -/

/-- Reads the power of ten behind a number. -/
def scale? (chars : List Char) : Option Int :=
  match chars with
  | [] => some 0
  | mark :: rest => do
      guard (mark = 'e' ∨ mark = 'E')
      let (negative, digits) := signed rest
      let value := ofDigits (← plainDigits? Char.isDigit digits)
      return if negative then -(value : Int) else value

/-- Whether a character belongs to a run of digits. -/
def isRunChar (c : Char) : Bool := c.isDigit || c = '_'

/-- Reads a number with a fraction or a power of ten. -/
def decimal? (chars : List Char) : Option Decimal := do
  let (negative, rest) := signed chars
  let wholePart ← whole? (rest.takeWhile isRunChar)
  match rest.dropWhile isRunChar with
  | '.' :: rest => do
      let fraction ← plainDigits? Char.isDigit (rest.takeWhile isRunChar)
      let scale ← scale? (rest.dropWhile isRunChar)
      return ⟨negative, ofDigits (wholePart ++ fraction), scale - fraction.length⟩
  | rest => do
      guard (rest ≠ [])
      return ⟨negative, ofDigits wholePart, ← scale? rest⟩

/-- Reads a number.  One beyond all finite ones is refused. -/
def real? (chars : List Char) : Option Real64 :=
  let (negative, rest) := signed chars
  if rest = "inf".toList then some (.infinite negative)
  else if rest = "nan".toList then some .undefined
  else do
    let decimal ← decimal? chars
    let magnitude ← Binary64.ofDecimal? decimal.significand decimal.exponent
    return .finite decimal.negative magnitude

/-! ## Dates and times -/

/-- Reads a fixed number of digits at the front. -/
def fixed? (count : Nat) (chars : List Char) : Option (Nat × List Char) := do
  let digits := chars.take count
  guard (digits.length = count ∧ digits.all Char.isDigit)
  return (ofDigits digits, chars.drop count)

/-- Reads a character at the front. -/
def mark? (mark : Char) : List Char → Option (List Char)
  | c :: rest => if c = mark then some rest else none
  | [] => none

/-- A number with zeros in front up to a width. -/
def padded (width n : Nat) : String :=
  let digits := toString n
  "".pushn '0' (width - digits.length) ++ digits

/-- Reads a date at the front; gives its usual form. -/
def date? (chars : List Char) : Option (String × List Char) := do
  let (year, rest) ← fixed? 4 chars
  let (month, rest) ← fixed? 2 (← mark? '-' rest)
  let (day, rest) ← fixed? 2 (← mark? '-' rest)
  let _ ← Date.ofParts? year month day
  return (s!"{padded 4 year}-{padded 2 month}-{padded 2 day}", rest)

/-- Reads the digits behind the seconds; nine of them count. -/
def subsecond? (chars : List Char) : Option (String × List Char) :=
  match chars with
  | '.' :: rest => do
      let digits := rest.takeWhile Char.isDigit
      guard (digits ≠ [])
      let counted := ((digits.take 9).reverse.dropWhile (· = '0')).reverse
      let text := if counted = [] then "" else String.ofList ('.' :: counted)
      return (text, rest.dropWhile Char.isDigit)
  | _ => some ("", chars)

/-- Reads a time of day at the front; gives its usual form. -/
def time? (chars : List Char) : Option (String × List Char) := do
  let (hour, rest) ← fixed? 2 chars
  let (minute, rest) ← fixed? 2 (← mark? ':' rest)
  let (second, rest) ← fixed? 2 (← mark? ':' rest)
  guard (hour ≤ 23 ∧ minute ≤ 59 ∧ second ≤ 60)
  let (fraction, rest) ← subsecond? rest
  return (s!"{padded 2 hour}:{padded 2 minute}:{padded 2 second}{fraction}", rest)

/-- Reads an offset from universal time; gives its usual form. -/
def offset? (chars : List Char) : Option String :=
  match chars with
  | [] => some ""
  | sign :: rest =>
      if (sign = 'Z' ∨ sign = 'z') ∧ rest = [] then some "Z"
      else if sign = '+' ∨ sign = '-' then do
        let (hour, rest) ← fixed? 2 rest
        let (minute, rest) ← fixed? 2 (← mark? ':' rest)
        guard (hour ≤ 23 ∧ minute ≤ 59 ∧ rest = [])
        let shown := if hour = 0 ∧ minute = 0 then '+' else sign
        return s!"{shown}{padded 2 hour}:{padded 2 minute}"
      else none

/-- Reads a date, a time of day, or both with an optional offset; gives the usual form. -/
def moment? (chars : List Char) : Option String :=
  match date? chars with
  | some (date, []) => some date
  | some (date, mark :: rest) => do
      guard (mark = 'T' ∨ mark = 't' ∨ mark = ' ')
      let (time, rest) ← time? rest
      return s!"{date}T{time}{← offset? rest}"
  | none => do
      let (time, rest) ← time? chars
      guard (rest = [])
      return time

end MediaHarvest.Toml
