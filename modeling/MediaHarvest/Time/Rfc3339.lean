import MediaHarvest.Number.Decimal
import MediaHarvest.Text.Bytes
import MediaHarvest.Text.Blank
import MediaHarvest.Time.Instant

/-!
# Dates and times as text

Instants are written in the form of RFC 3339 in universal time, with the least of 0, 3, 6 and 9
fraction digits that is exact.  Reading is more lenient: blanks may stand before numbers and
separators, numbers may be shorter, the date and the time may be separated by a blank, digits after
the ninth are dropped, and the offset is a `Z`, the word `UTC`, or a sign with hours and minutes.
-/

namespace MediaHarvest.Time

open MediaHarvest.Number

/-- Why a text is not a date and time. -/
inductive TimeError where
  /-- A character is not allowed where it stands. -/
  | invalid
  | tooShort
  | outOfRange
  | tooLong
  /-- The offset leads out of the calendar. -/
  | impossible
deriving DecidableEq, Repr

/-- The wording of a refused date and time. -/
def TimeError.message : TimeError → String
  | .invalid => "input contains invalid characters"
  | .tooShort => "premature end of input"
  | .outOfRange => "input is out of range"
  | .tooLong => "trailing input"
  | .impossible => "no possible date and time matching input"

/-! ## Writing -/

/-- A number with zeros in front up to a width. -/
def padded (width n : Nat) : String :=
  let digits := (toString n).toList
  String.ofList (List.replicate (width - digits.length) '0' ++ digits)

/-- A year: four digits, with a sign in front outside of them. -/
def yearText (year : Int) : String :=
  if 0 ≤ year ∧ year ≤ 9999 then padded 4 year.toNat
  else (if year < 0 then "-" else "+") ++ padded 4 year.natAbs

/-- The fraction of a second. -/
def fractionText (nanos : Nat) : String :=
  if nanos = 0 then ""
  else if nanos % 1000000 = 0 then "." ++ padded 3 (nanos / 1000000)
  else if nanos % 1000 = 0 then "." ++ padded 6 (nanos / 1000)
  else "." ++ padded 9 nanos

/-- The date and time of an instant; a leap second is the sixtieth of its minute. -/
def clockText (instant : Instant) : String :=
  let date := instant.date
  let second := instant.secondOfDay
  let leap := if 1000000000 ≤ instant.nanos then 1 else 0
  yearText date.year ++ "-" ++ padded 2 date.month ++ "-" ++ padded 2 date.day ++ "T" ++
    padded 2 (second / 3600) ++ ":" ++ padded 2 (second / 60 % 60) ++ ":" ++
    padded 2 (second % 60 + leap) ++ fractionText (instant.nanos % 1000000000)

/-- The text of an instant. -/
def render (instant : Instant) : String := clockText instant ++ "Z"

/-- The text of an instant in which the offset is written as hours and minutes. -/
def renderOffset (instant : Instant) : String := clockText instant ++ "+00:00"

/-! ## Reading -/

/-- A step of the reader: takes something off the front of the text. -/
abbrev Step (α : Type) := List Char → Except TimeError (α × List Char)

/-- A run of one to `most` digits. -/
def number (most : Nat) : Step Nat := fun chars =>
  let run := (chars.take most).takeWhile Char.isDigit
  if chars = [] then .error .tooShort
  else if run = [] then .error .invalid
  else if 0x8000000000000000 ≤ ofDigits run then .error .outOfRange
  else .ok (ofDigits run, chars.drop run.length)

/-- A number of up to two digits within bounds, behind blanks. -/
def part (low high : Nat) : Step Nat := fun chars => do
  let (value, rest) ← number 2 (Text.trimStart chars)
  if low ≤ value ∧ value ≤ high then return (value, rest) else throw .outOfRange

/-- A year: up to four digits, or a sign and any number of them. -/
def year : Step Int := fun chars => do
  let chars := Text.trimStart chars
  let (value, rest) ← match chars with
    | '-' :: more => do
        let (n, rest) ← number more.length more
        pure (-(n : Int), rest)
    | '+' :: more => do
        let (n, rest) ← number more.length more
        pure ((n : Int), rest)
    | _ => do
        let (n, rest) ← number 4 chars
        pure ((n : Int), rest)
  if -0x80000000 ≤ value ∧ value < 0x80000000 then return (value, rest) else throw .outOfRange

/-- A given character behind blanks. -/
def mark (wanted : Char) : Step Unit := fun chars =>
  match Text.trimStart chars with
  | [] => .error .tooShort
  | c :: rest => if c = wanted then .ok ((), rest) else .error .invalid

/-- The fraction of a second, in nanoseconds; digits after the ninth are dropped. -/
def fraction : Step Nat := fun chars =>
  match chars with
  | '.' :: more => do
      let (value, rest) ← number 9 more
      let count := more.length - rest.length
      return (value * Nat.pow 10 (9 - count), rest.dropWhile Char.isDigit)
  | _ => .ok (0, chars)

/-- Two digits; fewer than two bytes are too short a text. -/
def twoDigits : Step (Char × Char) := fun chars =>
  match chars with
  | first :: second :: rest => .ok ((first, second), rest)
  | [single] => if (Text.utf8 (String.singleton single)).length < 2 then .error .tooShort
      else .error .invalid
  | [] => .error .tooShort

/-- The offset from universal time in seconds: a sign, hours, any colons and blanks, minutes. -/
def signedOffset : Step Int := fun chars => do
  let (negative, chars) ← match chars with
    | '+' :: rest => pure (false, rest)
    | '-' :: rest => pure (true, rest)
    | '−' :: rest => pure (true, rest)
    | [] => throw .tooShort
    | _ => throw .invalid
  let ((h₁, h₂), chars) ← twoDigits chars
  if !(h₁.isDigit && h₂.isDigit) then throw .invalid
  let chars := chars.dropWhile fun c => c = ':' || Text.isBlank c
  let ((m₁, m₂), chars) ← twoDigits chars
  if !(m₁.isDigit && m₂.isDigit) then throw .invalid
  if '5' < m₁ then throw .outOfRange
  let size : Int := (ofDigits [h₁, h₂] * 60 + ofDigits [m₁, m₂] : Nat) * 60
  return (if negative then -size else size, chars)

/-- The offset from universal time, behind blanks. -/
def offset : Step Int := fun chars =>
  match Text.trimStart chars with
  | 'Z' :: rest => .ok (0, rest)
  | 'z' :: rest => .ok (0, rest)
  | u :: t :: c :: rest =>
      if u.toUpper = 'U' ∧ t.toUpper = 'T' ∧ c.toUpper = 'C' then .ok (0, rest)
      else signedOffset (u :: t :: c :: rest)
  | chars => signedOffset chars

/-- What stands between the date and the time. -/
def separator : Step Unit := fun chars =>
  match chars with
  | [] => .error .tooShort
  | c :: rest => if c = 't' ∨ c = 'T' ∨ c = ' ' then .ok ((), rest) else .error .invalid

/-- Reads a date and time. -/
def parse (text : String) : Except TimeError Instant := do
  let (year, chars) ← year text.toList
  let (_, chars) ← mark '-' chars
  let (month, chars) ← part 1 12 chars
  let (_, chars) ← mark '-' chars
  let (day, chars) ← part 1 31 chars
  let (_, chars) ← separator chars
  let (hour, chars) ← part 0 23 chars
  let (_, chars) ← mark ':' chars
  let (minute, chars) ← part 0 59 chars
  let (_, chars) ← mark ':' chars
  let (second, chars) ← part 0 60 chars
  let (nanos, chars) ← fraction chars
  let (offset, chars) ← offset chars
  if Text.trimStart chars ≠ [] then throw .tooLong
  let some date := Date.ofParts? year month day | throw .outOfRange
  if 86400 ≤ offset.natAbs then throw .outOfRange
  let (second, nanos) := if second = 60 then (59, nanos + 1000000000) else (second, nanos)
  let seconds := date.toDays * 86400 + (hour * 3600 + minute * 60 + second : Nat) - offset
  let some instant := Instant.ofParts? seconds nanos | throw .impossible
  return instant

end MediaHarvest.Time
