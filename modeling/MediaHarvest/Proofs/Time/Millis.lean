import MediaHarvest.Retrieval.Limits
import MediaHarvest.Time.Instant
import Mathlib.Algebra.Group.Int.Defs
import Mathlib.Algebra.Group.Nat.Defs

/-!
# Whole milliseconds

Records keep spans and instants in whole milliseconds.  What is whole already is kept exactly, and
whatever is made of milliseconds is whole.
-/

namespace MediaHarvest

/-- A span of whole milliseconds that fit into 64 bits. -/
def Span.Whole (span : Span) : Prop := span.nanos % 1000000 = 0 ∧ span.nanos / 1000000 < 2 ^ 64

instance (span : Span) : Decidable span.Whole := by
  unfold Span.Whole
  infer_instance

/-- A whole span is made of its milliseconds. -/
theorem Span.ofMillis_wholeMillis {span : Span} (whole : span.Whole) :
    ofMillis span.wholeMillis = span := by
  obtain ⟨nanos⟩ := span
  obtain ⟨divides, fits⟩ := whole
  dsimp only at divides fits
  have value : (UInt64.ofNat (nanos / 1000000)).toNat = nanos / 1000000 := by
    rw [UInt64.toNat_ofNat']
    exact Nat.mod_eq_of_lt fits
  simp only [ofMillis, wholeMillis, millis, value, mk.injEq]
  omega

theorem Span.whole_ofMillis (millis : UInt64) : (ofMillis millis).Whole := by
  have small : millis.toNat < 2 ^ 64 := millis.toNat_lt
  constructor
  · simp [ofMillis]
  · simp only [ofMillis]
    omega

theorem Span.whole_zero : zero.Whole := by
  decide

/-- A span as records keep it: its whole milliseconds, within 64 bits. -/
def Span.inMillis (span : Span) : Span := ofMillis span.wholeMillis

/-- Limits whose three spans are whole. -/
structure Limits.Whole (limits : Limits) : Prop where
  connection : limits.connectionTimeout.Whole
  retrieval : limits.retrievalTime.Whole
  /-- The bound on the retrieval and the processing. -/
  processing : limits.processingTime.Whole

theorem Limits.whole_unlimited : unlimited.Whole :=
  ⟨Span.whole_zero, Span.whole_zero, Span.whole_zero⟩

/-- Limits as records keep them, their spans in whole milliseconds. -/
def Limits.inMillis (limits : Limits) : Limits :=
  { limits with
    connectionTimeout := limits.connectionTimeout.inMillis
    retrievalTime := limits.retrievalTime.inMillis
    processingTime := limits.processingTime.inMillis }

theorem Limits.inMillis_of_whole {limits : Limits} (whole : limits.Whole) :
    limits.inMillis = limits := by
  simp only [inMillis, Span.inMillis, Span.ofMillis_wholeMillis whole.connection,
    Span.ofMillis_wholeMillis whole.retrieval, Span.ofMillis_wholeMillis whole.processing]

theorem Limits.whole_inMillis (limits : Limits) : limits.inMillis.Whole :=
  ⟨Span.whole_ofMillis _, Span.whole_ofMillis _, Span.whole_ofMillis _⟩

/-- An instant of whole milliseconds outside of leap seconds. -/
def Instant.Whole (instant : Instant) : Prop :=
  instant.nanos < 1000000000 ∧ instant.nanos % 1000000 = 0

instance (instant : Instant) : Decidable instant.Whole := by
  unfold Instant.Whole
  infer_instance

/-- An instant outside of leap seconds. -/
def Instant.Plain (instant : Instant) : Prop := instant.nanos < 1000000000

/-- An instant outside of leap seconds has the milliseconds of a whole one. -/
theorem Instant.exists_whole {instant : Instant} (plain : instant.Plain) :
    ∃ whole : Instant, whole.Whole ∧ whole.toMillis = instant.toMillis := by
  have small : instant.nanos / 1000000 * 1000000 < 1000000000 :=
    Nat.lt_of_le_of_lt (Nat.div_mul_le_self ..) plain
  have divides : instant.nanos / 1000000 * 1000000 / 1000000 = instant.nanos / 1000000 :=
    Nat.mul_div_cancel _ (by decide)
  refine ⟨⟨instant.seconds, instant.nanos / 1000000 * 1000000, instant.inRange, by omega, ?_⟩,
    ⟨small, Nat.mul_mod_left _ _⟩, ?_⟩
  · intro leap
    exact absurd small (Nat.not_lt.2 leap)
  · rw [toMillis, toMillis, divides]

/-- The milliseconds of an instant fit into a signed word. -/
theorem Instant.toMillis_bounds (instant : Instant) :
    -2 ^ 63 ≤ instant.toMillis ∧ instant.toMillis < 2 ^ 63 := by
  obtain ⟨low, high⟩ := instant.inRange
  have part := instant.nanos_lt
  rw [firstSecond] at low
  rw [lastSecond] at high
  rw [toMillis]
  omega

/-- A whole instant is made of its milliseconds. -/
theorem Instant.ofMillis?_toMillis {instant : Instant} (whole : instant.Whole) :
    ofMillis? instant.toMillis = some instant := by
  obtain ⟨seconds, nanos, inRange, nanos_lt, leap⟩ := instant
  obtain ⟨plain, divides⟩ := whole
  dsimp only at plain divides
  have second : (seconds * 1000 + (nanos / 1000000 : Nat)).fdiv 1000 = seconds := by
    rw [Int.fdiv_eq_ediv_of_nonneg _ (by decide)]
    omega
  have part : ((seconds * 1000 + (nanos / 1000000 : Nat)).fmod 1000).toNat * 1000000 = nanos := by
    rw [Int.fmod_eq_emod_of_nonneg _ (by decide)]
    omega
  rw [toMillis, ofMillis?]
  dsimp only
  rw [second, part, ofParts?, dif_pos ⟨inRange, nanos_lt, leap⟩]

theorem Instant.whole_of_ofMillis? {millis : Int} {instant : Instant}
    (made : ofMillis? millis = some instant) : instant.Whole := by
  have within : 0 ≤ millis.fmod 1000 ∧ millis.fmod 1000 < 1000 := by
    rw [Int.fmod_eq_emod_of_nonneg _ (by decide)]
    omega
  rw [ofMillis?, ofParts?] at made
  split at made
  · cases made
    constructor
    · dsimp only
      omega
    · exact Nat.mul_mod_left _ _
  · cases made

/-- Milliseconds have an instant exactly from the start of the first year to the end of the last. -/
theorem Instant.exists_ofMillis?_iff {millis : Int} :
    (∃ instant, ofMillis? millis = some instant) ↔
      firstSecond * 1000 ≤ millis ∧ millis ≤ lastSecond * 1000 + 999 := by
  have quotient : millis.fdiv 1000 = millis / 1000 := Int.fdiv_eq_ediv_of_nonneg _ (by decide)
  have remainder : millis.fmod 1000 = millis % 1000 := Int.fmod_eq_emod_of_nonneg _ (by decide)
  rw [ofMillis?, ofParts?, quotient, remainder]
  constructor
  · rintro ⟨instant, made⟩
    split at made
    · next fits =>
      obtain ⟨⟨low, high⟩, _⟩ := fits
      omega
    · cases made
  · rintro ⟨low, high⟩
    refine ⟨_, dif_pos ⟨⟨?_, ?_⟩, ?_, ?_⟩⟩ <;> omega

/-- An instant has the milliseconds that it was made of. -/
theorem Instant.toMillis_of_ofMillis? {millis : Int} {instant : Instant}
    (made : ofMillis? millis = some instant) : instant.toMillis = millis := by
  have quotient : millis.fdiv 1000 = millis / 1000 := Int.fdiv_eq_ediv_of_nonneg _ (by decide)
  have remainder : millis.fmod 1000 = millis % 1000 := Int.fmod_eq_emod_of_nonneg _ (by decide)
  rw [ofMillis?, ofParts?, quotient, remainder] at made
  split at made
  · cases made
    rw [toMillis]
    dsimp only
    omega
  · cases made

end MediaHarvest
