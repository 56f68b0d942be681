import MediaHarvest.Retrieval.Session
import Mathlib.Algebra.Group.Nat.Defs
import Mathlib.Logic.Basic

/-!
# The floor of the rate

A transfer is too slow if, at its rate, fewer bytes have come than the floor asks for.  The check
compares the floor with a rate that is rounded down and then cut to 64 bits.  Rounding loses nothing,
cutting does: the check is exact just when the rate fits in 64 bits or what is left of it is not
below the floor.  After a whole second every rate fits; within the first one, so many bytes can come
that their rate is taken for none at all.
-/

namespace MediaHarvest

/-! ## Rates -/

namespace Span

/-- The whole milliseconds of a span over which a rate is taken: at least one. -/
def rated (span : Span) : Nat := max span.millis 1

theorem rated_pos (span : Span) : 0 < span.rated := Nat.le_max_right ..

end Span

namespace ByteSize

/-- The bytes in a second, rounded down. -/
def rate (size : ByteSize) (elapsed : Span) : Nat := size.bytes.toNat * 1000 / elapsed.rated

variable {size more : ByteSize} {elapsed : Span}

/-- The rate is computed within 64 bits. -/
theorem toNat_rateOver (size : ByteSize) (elapsed : Span) :
    (size.rateOver elapsed).toNat = size.rate elapsed % 2 ^ 64 :=
  UInt64.toNat_ofNat'

/-- A floor is above the rounded rate only if it is above the rate. -/
theorem rate_lt_iff (size : ByteSize) (elapsed : Span) (floor : Nat) :
    size.rate elapsed < floor ↔ size.bytes.toNat * 1000 < floor * elapsed.rated :=
  Nat.div_lt_iff_lt_mul elapsed.rated_pos

theorem rate_mono (le : size.bytes ≤ more.bytes) (elapsed : Span) :
    size.rate elapsed ≤ more.rate elapsed :=
  Nat.div_le_div_right (Nat.mul_le_mul_right _ (UInt64.le_iff_toNat_le.1 le))

/-- From a second on, or for few enough bytes, the rate fits in 64 bits. -/
theorem rate_fits (size : ByteSize) (elapsed : Span)
    (slow : 1000 ≤ elapsed.millis ∨ size.bytes.toNat * 1000 < 2 ^ 64) :
    size.rate elapsed < 2 ^ 64 := by
  rw [rate_lt_iff]
  rcases slow with long | few
  · have span : 1000 ≤ elapsed.rated := Nat.le_trans long (Nat.le_max_left ..)
    calc size.bytes.toNat * 1000 < 2 ^ 64 * 1000 :=
          Nat.mul_lt_mul_of_pos_right size.bytes.toNat_lt (by decide)
      _ ≤ 2 ^ 64 * elapsed.rated := Nat.mul_le_mul_left _ span
  · exact Nat.lt_of_lt_of_le few (Nat.le_mul_of_pos_right _ elapsed.rated_pos)

end ByteSize

/-! ## The check -/

namespace Terms

variable (terms : Terms) (elapsed : Span) (received : UInt64)

/-- Fewer bytes have come than the floor asks for. -/
def FallsShort : Prop :=
  received.toNat * 1000 < terms.limits.throughputFloor.toNat * elapsed.rated

/-- Of the rate, what is left in 64 bits is below the floor. -/
def SeemsShort : Prop :=
  (ByteSize.mk received).rate elapsed % 2 ^ 64 < terms.limits.throughputFloor.toNat

/-- The same terms with another floor. -/
def withFloor (floor : UInt64) : Terms :=
  { terms with limits := { terms.limits with throughputFloor := floor } }

variable {terms elapsed received}

theorem checkThroughput_of_early (early : elapsed.nanos < terms.policy.grace.nanos)
    (received : Nat) : terms.checkThroughput elapsed received = .ok () := by
  rw [checkThroughput]
  cases terms.limits.floor with
  | none => rfl
  | some floor => exact if_pos early

/-- After the grace the floor is compared with what is left of the rate.  A floor of zero stands for
none, and nothing is below it. -/
theorem checkThroughput_of_late (late : terms.policy.grace.nanos ≤ elapsed.nanos)
    (received : UInt64) :
    terms.checkThroughput elapsed received.toNat =
      if (ByteSize.mk received).rateOver elapsed < terms.limits.throughputFloor then
        .error (.tooSlow ((ByteSize.mk received).rateOver elapsed) terms.limits.throughputFloor)
      else .ok () := by
  rw [checkThroughput, Limits.floor, Limits.positive]
  by_cases unpaced : terms.limits.throughputFloor = 0
  · rw [if_pos unpaced, unpaced, if_neg UInt64.not_lt_zero]
  · rw [if_neg unpaced]
    dsimp only
    rw [if_neg (Nat.not_lt.2 late), UInt64.ofNat_toNat]

theorem seemsShort_iff :
    terms.SeemsShort elapsed received ↔
      (ByteSize.mk received).rateOver elapsed < terms.limits.throughputFloor := by
  rw [SeemsShort, UInt64.lt_iff_toNat_lt, ByteSize.toNat_rateOver]

theorem passes_iff_of_late (late : terms.policy.grace.nanos ≤ elapsed.nanos) (received : UInt64) :
    terms.checkThroughput elapsed received.toNat = .ok () ↔ ¬ terms.SeemsShort elapsed received := by
  rw [checkThroughput_of_late late, seemsShort_iff]
  split
  · next short => exact iff_of_false nofun (not_not_intro short)
  · next enough => exact iff_of_true rfl enough

theorem fallsShort_iff :
    terms.FallsShort elapsed received ↔
      (ByteSize.mk received).rate elapsed < terms.limits.throughputFloor.toNat :=
  (ByteSize.rate_lt_iff ..).symm

/-- What falls short also seems to, for cutting makes no rate larger. -/
theorem FallsShort.seems (short : terms.FallsShort elapsed received) :
    terms.SeemsShort elapsed received :=
  Nat.lt_of_le_of_lt (Nat.mod_le ..) (fallsShort_iff.1 short)

/-- The check is right unless the rate is cut to less than the floor. -/
theorem exact_iff :
    (terms.SeemsShort elapsed received ↔ terms.FallsShort elapsed received) ↔
      ((ByteSize.mk received).rate elapsed < 2 ^ 64 ∨ ¬ terms.SeemsShort elapsed received) := by
  constructor
  · intro same
    rw [or_iff_not_imp_right, not_not]
    intro seems
    exact Nat.lt_trans (fallsShort_iff.1 (same.1 seems)) (UInt64.toNat_lt _)
  · rintro (fits | enough)
    · rw [fallsShort_iff, SeemsShort, Nat.mod_eq_of_lt fits]
    · exact iff_of_false enough fun short => enough short.seems

/-- How the floor of the rate is kept. -/
structure KeepsFloor (terms : Terms) (elapsed : Span) (received : UInt64) : Prop where
  /-- Nothing is asked within the grace. -/
  early : elapsed.nanos < terms.policy.grace.nanos →
    terms.checkThroughput elapsed received.toNat = .ok ()
  /-- After it a transfer passes or fails, with the rate and the floor. -/
  late : terms.policy.grace.nanos ≤ elapsed.nanos →
    (¬ terms.SeemsShort elapsed received ∧
        terms.checkThroughput elapsed received.toNat = .ok ()) ∨
      (terms.SeemsShort elapsed received ∧ ∃ observed : UInt64,
        observed.toNat = (ByteSize.mk received).rate elapsed % 2 ^ 64 ∧
        terms.checkThroughput elapsed received.toNat =
          .error (.tooSlow observed terms.limits.throughputFloor))
  /-- A transfer that falls short never passes after the grace, and one that does not fall short
  passes just if its rate fits or is not cut to less than the floor. -/
  exact : terms.policy.grace.nanos ≤ elapsed.nanos →
    ((terms.checkThroughput elapsed received.toNat = .ok () ↔
        ¬ terms.FallsShort elapsed received) ↔
      ((ByteSize.mk received).rate elapsed < 2 ^ 64 ∨ ¬ terms.SeemsShort elapsed received))
  fits : 1000 ≤ elapsed.millis ∨ received.toNat * 1000 < 2 ^ 64 →
    (ByteSize.mk received).rate elapsed < 2 ^ 64
  /-- So after a grace of a second or more no transfer is misjudged. -/
  seconds : 1000 ≤ terms.policy.grace.millis → terms.policy.grace.nanos ≤ elapsed.nanos →
    (terms.checkThroughput elapsed received.toNat = .ok () ↔
      ¬ terms.FallsShort elapsed received)
  /-- More bytes in the same time pass if their rate fits. -/
  more : ∀ more, received ≤ more → (ByteSize.mk more).rate elapsed < 2 ^ 64 →
    terms.checkThroughput elapsed received.toNat = .ok () →
      terms.checkThroughput elapsed more.toNat = .ok ()
  /-- The same bytes pass against a lower floor. -/
  lower : ∀ floor, floor ≤ terms.limits.throughputFloor →
    terms.checkThroughput elapsed received.toNat = .ok () →
      (terms.withFloor floor).checkThroughput elapsed received.toNat = .ok ()

theorem passes_of_more {more : UInt64} (le : received ≤ more)
    (fits : (ByteSize.mk more).rate elapsed < 2 ^ 64)
    (passes : terms.checkThroughput elapsed received.toNat = .ok ()) :
    terms.checkThroughput elapsed more.toNat = .ok () := by
  by_cases early : elapsed.nanos < terms.policy.grace.nanos
  · exact checkThroughput_of_early early _
  · have late := Nat.not_lt.1 early
    rw [passes_iff_of_late late] at passes ⊢
    intro short
    have grows : (ByteSize.mk received).rate elapsed ≤ (ByteSize.mk more).rate elapsed :=
      ByteSize.rate_mono le elapsed
    rw [SeemsShort, Nat.mod_eq_of_lt fits] at short
    rw [SeemsShort, Nat.mod_eq_of_lt (Nat.lt_of_le_of_lt grows fits)] at passes
    exact passes (Nat.lt_of_le_of_lt grows short)

theorem passes_of_lower {floor : UInt64} (le : floor ≤ terms.limits.throughputFloor)
    (passes : terms.checkThroughput elapsed received.toNat = .ok ()) :
    (terms.withFloor floor).checkThroughput elapsed received.toNat = .ok () := by
  have grace : (terms.withFloor floor).policy.grace = terms.policy.grace := rfl
  by_cases early : elapsed.nanos < terms.policy.grace.nanos
  · exact checkThroughput_of_early (grace ▸ early) _
  · have late := Nat.not_lt.1 early
    rw [passes_iff_of_late late] at passes
    rw [passes_iff_of_late (grace ▸ late)]
    exact fun short => passes (Nat.lt_of_lt_of_le short (UInt64.le_iff_toNat_le.1 le))

/-- Whatever the terms, the time and the number of bytes, the check of the rate is exact as long as
the rate fits in 64 bits. -/
theorem keepsFloor (terms : Terms) (elapsed : Span) (received : UInt64) :
    terms.KeepsFloor elapsed received where
  early early := checkThroughput_of_early early _
  late late := by
    rw [checkThroughput_of_late late, seemsShort_iff]
    split
    · next short => exact .inr ⟨short, _, ByteSize.toNat_rateOver .., rfl⟩
    · next enough => exact .inl ⟨enough, rfl⟩
  exact late := by
    rw [passes_iff_of_late late, not_iff_not, exact_iff]
  fits := ByteSize.rate_fits ⟨received⟩ elapsed
  seconds long late := by
    have span : 1000 ≤ elapsed.millis := Nat.le_trans long (Nat.div_le_div_right late)
    rw [passes_iff_of_late late, not_iff_not, exact_iff]
    exact .inl (ByteSize.rate_fits ⟨received⟩ elapsed (.inl span))
  more _ := passes_of_more
  lower _ := passes_of_lower

/-- Terms with a floor of one byte in a second and a grace of a millisecond. -/
def hasty : Terms :=
  ⟨.unreachable .zero, { Policy.usual with grace := .ofMillis 1 },
    { Limits.unlimited with throughputFloor := 1 }, none⟩

/-- So many bytes come in a millisecond that their rate is cut to zero: the transfer is given up,
though it would have passed with one byte fewer. -/
theorem tooSlow_of_most :
    ¬ hasty.FallsShort (.ofMillis 1) 2305843009213693952 ∧
      hasty.checkThroughput (.ofMillis 1) 2305843009213693952 = .error (.tooSlow 0 1) ∧
      hasty.checkThroughput (.ofMillis 1) 2305843009213693951 = .ok () :=
  ⟨by unfold FallsShort; decide +kernel, by rfl, by rfl⟩

end Terms

end MediaHarvest
