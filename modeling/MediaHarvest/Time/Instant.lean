/-!
# Instants and the calendar

An instant is a second since the start of 1970 and a part of it, counted in nanoseconds.  A part of
a whole second or more stands for a leap second, which only the last second of a minute can carry.
Instants are compared by their seconds and then by their parts.

Years run from `-262143` to `262142` of the proleptic Gregorian calendar.
-/

namespace MediaHarvest

/-- A day of the calendar. -/
structure Date where
  /-- The year; zero is the year before year one. -/
  year : Int
  month : Nat
  day : Nat
deriving DecidableEq, Repr

namespace Date

/-- Whether a year has a 29th of February. -/
def isLeap (year : Int) : Bool :=
  year % 4 == 0 && (year % 100 != 0 || year % 400 == 0)

/-- The number of days of a month. -/
def monthLength (year : Int) (month : Nat) : Nat :=
  match month with
  | 2 => if isLeap year then 29 else 28
  | 4 | 6 | 9 | 11 => 30
  | _ => 31

/-- The first and the last year of the calendar. -/
def firstYear : Int := -262143

/-- The last year of the calendar. -/
def lastYear : Int := 262142

/-- The day with a year, month and day number, if there is one. -/
def ofParts? (year : Int) (month day : Nat) : Option Date :=
  if firstYear ≤ year ∧ year ≤ lastYear ∧ 1 ≤ month ∧ month ≤ 12 ∧ 1 ≤ day ∧
      day ≤ monthLength year month then some ⟨year, month, day⟩
  else none

/-- The number of days from the first of January 1970.  Years are counted from March, so that the
leap day comes last, and grouped into eras of four hundred years. -/
def toDays (date : Date) : Int :=
  let year := if date.month ≤ 2 then date.year - 1 else date.year
  let era := year.fdiv 400
  let yearOfEra := year - era * 400
  let month : Int := if date.month ≤ 2 then date.month + 9 else date.month - 3
  let dayOfYear := (153 * month + 2).fdiv 5 + date.day - 1
  let dayOfEra := yearOfEra * 365 + yearOfEra.fdiv 4 - yearOfEra.fdiv 100 + dayOfYear
  era * 146097 + dayOfEra - 719468

/-- The day a number of days after the first of January 1970. -/
def ofDays (days : Int) : Date :=
  let shifted := days + 719468
  let era := shifted.fdiv 146097
  let dayOfEra := shifted - era * 146097
  let yearOfEra :=
    (dayOfEra - dayOfEra.fdiv 1460 + dayOfEra.fdiv 36524 - dayOfEra.fdiv 146096).fdiv 365
  let dayOfYear := dayOfEra - (365 * yearOfEra + yearOfEra.fdiv 4 - yearOfEra.fdiv 100)
  let month := (5 * dayOfYear + 2).fdiv 153
  let day := dayOfYear - (153 * month + 2).fdiv 5 + 1
  let calendarMonth := if month < 10 then month + 3 else month - 9
  let year := yearOfEra + era * 400 + (if calendarMonth ≤ 2 then 1 else 0)
  ⟨year, calendarMonth.toNat, day.toNat⟩

end Date

/-- The first second that an instant can have: the start of the first year. -/
def firstSecond : Int := -8334601228800

/-- The last second that an instant can have: the end of the last year. -/
def lastSecond : Int := 8210266876799

/-- A moment in time. -/
structure Instant where
  seconds : Int
  /-- Nanoseconds within the second. -/
  nanos : Nat
  inRange : firstSecond ≤ seconds ∧ seconds ≤ lastSecond
  /-- A second has no more than two seconds' worth of parts. -/
  nanos_lt : nanos < 2000000000
  /-- Only the last second of a minute carries a leap second. -/
  leap : 1000000000 ≤ nanos → seconds % 60 = 59
deriving DecidableEq, Repr

namespace Instant

/-- The instant with the given parts, if there is one. -/
def ofParts? (seconds : Int) (nanos : Nat) : Option Instant :=
  if h : (firstSecond ≤ seconds ∧ seconds ≤ lastSecond) ∧ nanos < 2000000000 ∧
      (1000000000 ≤ nanos → seconds % 60 = 59) then
    some ⟨seconds, nanos, h.1, h.2.1, h.2.2⟩
  else none

/-- The start of 1970. -/
def epoch : Instant := ⟨0, 0, by decide, by decide, by decide⟩

instance : Inhabited Instant := ⟨epoch⟩

/-- Instants are ordered by their seconds and then by their parts. -/
def notAfter (first second : Instant) : Bool :=
  first.seconds < second.seconds ||
    (first.seconds == second.seconds && first.nanos ≤ second.nanos)

instance : LE Instant := ⟨fun first second => first.notAfter second = true⟩

instance (first second : Instant) : Decidable (first ≤ second) :=
  inferInstanceAs (Decidable (first.notAfter second = true))

/-- Strictly earlier. -/
instance : LT Instant := ⟨fun first second => ¬ second ≤ first⟩

instance (first second : Instant) : Decidable (first < second) :=
  inferInstanceAs (Decidable (¬ second ≤ first))

/-- Milliseconds since the start of 1970, rounded down. -/
def toMillis (instant : Instant) : Int := instant.seconds * 1000 + (instant.nanos / 1000000 : Nat)

/-- The instant a number of milliseconds after the start of 1970. -/
def ofMillis? (millis : Int) : Option Instant :=
  ofParts? (millis.fdiv 1000) ((millis.fmod 1000).toNat * 1000000)

/-- The instant a number of days earlier, if the calendar reaches back so far.  Other days have no
leap second; there it is the second after. -/
def daysBefore? (instant : Instant) (days : Nat) : Option Instant :=
  if 0 < days ∧ 1000000000 ≤ instant.nanos then
    ofParts? (instant.seconds + 1 - 86400 * days) (instant.nanos - 1000000000)
  else ofParts? (instant.seconds - 86400 * days) instant.nanos

/-- The day of an instant. -/
def date (instant : Instant) : Date := Date.ofDays (instant.seconds.fdiv 86400)

/-- The second within the day. -/
def secondOfDay (instant : Instant) : Nat := (instant.seconds.fmod 86400).toNat

end Instant

end MediaHarvest
