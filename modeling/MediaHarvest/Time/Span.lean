/-!
# Spans of time

A span is a count of nanoseconds.  Records keep spans as whole milliseconds of 64 bits; messages
show them in the largest unit that is not below one.
-/

namespace MediaHarvest

/-- A span of time, in nanoseconds. -/
structure Span where
  /-- The nanoseconds. -/
  nanos : Nat
deriving DecidableEq, Repr, Inhabited

namespace Span

/-- No time at all. -/
def zero : Span := ⟨0⟩

/-- A span of seconds and nanoseconds. -/
def ofParts (seconds nanos : Nat) : Span := ⟨seconds * 1000000000 + nanos⟩

/-- A span of milliseconds. -/
def ofMillis (millis : UInt64) : Span := ⟨millis.toNat * 1000000⟩

/-- The whole milliseconds of a span. -/
def millis (span : Span) : Nat := span.nanos / 1000000

/-- The whole milliseconds of a span as records keep them, within 64 bits. -/
def wholeMillis (span : Span) : UInt64 := UInt64.ofNat span.millis

@[simp]
theorem wholeMillis_ofMillis (millis : UInt64) : (ofMillis millis).wholeMillis = millis := by
  simp [wholeMillis, Span.millis, ofMillis]

/-- Zero means that there is no bound. -/
def bounded (span : Span) : Option Span := if span = zero then none else some span

/-- The text of `whole` units and `part` of `10 ^ places`, without zeros at the end. -/
def decimalText (whole part places : Nat) : String :=
  let digits := (toString part).toList
  let padded := List.replicate (places - digits.length) '0' ++ digits
  let kept := (padded.reverse.dropWhile (· = '0')).reverse
  if part = 0 then toString whole
  else toString whole ++ "." ++ String.ofList kept

/-- The text of a span in messages. -/
def text (span : Span) : String :=
  let n := span.nanos
  if 1000000000 ≤ n then decimalText (n / 1000000000) (n % 1000000000) 9 ++ "s"
  else if 1000000 ≤ n then decimalText (n / 1000000) (n % 1000000) 6 ++ "ms"
  else if 1000 ≤ n then decimalText (n / 1000) (n % 1000) 3 ++ "µs"
  else toString n ++ "ns"

end Span

end MediaHarvest
