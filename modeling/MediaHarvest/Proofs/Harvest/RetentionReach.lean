import MediaHarvest.Harvest.Run
import MediaHarvest.Proofs.Ledger.Retention
import Mathlib.Tactic.SplitIfs

/-!
# How far back retention reaches

The settings allow any positive number of days, but the calendar has only so many before a time
(`Instant.reach`): since 1970 more than ninety-six million, and never two hundred million.  Up to there
a clean-up succeeds whatever the ledger holds; beyond, no harvest takes place.
-/

namespace MediaHarvest

/-! ## The days of the calendar -/

namespace Instant

variable {now : Instant} {days : Nat}

/-- The number of days that the calendar has before a time.  A leap second counts as the second
after. -/
def reach (now : Instant) : Int :=
  ((if 1000000000 ≤ now.nanos then now.seconds + 1 else now.seconds) - firstSecond) / 86400

theorem ofParts?_isSome_iff {seconds : Int} {nanos : Nat} :
    (ofParts? seconds nanos).isSome = true ↔
      (firstSecond ≤ seconds ∧ seconds ≤ lastSecond) ∧ nanos < 2000000000 ∧
        (1000000000 ≤ nanos → seconds % 60 = 59) := by
  rw [ofParts?]
  split
  · next parts => exact iff_of_true rfl parts
  · next parts => exact iff_of_false (by decide) parts

/-- Days can be counted back as far as the calendar has them. -/
theorem daysBefore?_isSome_iff (some : 0 < days) :
    (now.daysBefore? days).isSome = true ↔ (days : Int) ≤ now.reach := by
  have range := now.inRange
  have nanos := now.nanos_lt
  rw [daysBefore?, reach]
  unfold firstSecond lastSecond at *
  split
  · next leap =>
    rw [ofParts?_isSome_iff, if_pos leap.2]
    unfold firstSecond lastSecond
    omega
  · next plain =>
    rw [ofParts?_isSome_iff, if_neg fun leap => plain ⟨some, leap⟩]
    unfold firstSecond lastSecond
    omega

/-- Since 1970 the calendar has had its first 262 thousand years. -/
theorem reach_of_present (present : epoch ≤ now) : 96465292 ≤ now.reach := by
  have since : 0 ≤ now.seconds := by
    rcases le_iff.1 present with later | ⟨same, _⟩
    · exact Int.le_of_lt later
    · exact Int.le_of_eq same
  rw [reach]
  unfold firstSecond
  split <;> omega

theorem reach_le (now : Instant) : now.reach ≤ 191491529 := by
  have last := now.inRange.2
  rw [reach]
  unfold firstSecond lastSecond at *
  split <;> omega

end Instant

/-! ## The settings -/

namespace Settings

variable {settings : Settings}

/-- Accepted settings keep executions for a day at least, and stay accepted with any other number of
days. -/
theorem check_retention (accepted : settings.check = .ok settings) :
    settings.retention.days ≠ 0 ∧
      ∀ days : UInt32, days ≠ 0 →
        check { settings with retention := ⟨days⟩ } = .ok { settings with retention := ⟨days⟩ } := by
  have sound : settings.fault? = none := by
    rw [check] at accepted
    cases fault : settings.fault? with
    | none => rfl
    | some fault' =>
        rw [fault] at accepted
        cases accepted
  rw [fault?] at sound
  cases positive : settings.positiveFields.find? fun field => field.2 = 0 with
  | some field =>
      rw [positive] at sound
      cases sound
  | none =>
      rw [positive] at sound
      dsimp only at sound
      split_ifs at sound with grace folder none
      refine ⟨none, fun days some => ?_⟩
      have same : positiveFields { settings with retention := ⟨days⟩ } = settings.positiveFields :=
        rfl
      rw [check, fault?, same, positive]
      dsimp only
      rw [if_neg grace, if_neg folder, if_neg some]

end Settings

/-! ## Harvests -/

namespace Harvest

variable {settings : Settings} {now : Instant}

/-- What becomes of a retention at a time. -/
structure Retained (settings : Settings) (now : Instant) : Prop where
  positive : settings.retention.days ≠ 0
  /-- No number of days is too large for the settings. -/
  unlimited : ∀ days : UInt32, days ≠ 0 →
    Settings.check { settings with retention := ⟨days⟩ } =
      .ok { settings with retention := ⟨days⟩ }
  /-- Within the calendar every ledger is cleaned, and no harvest fails for it. -/
  within : (settings.retention.days.toNat : Int) ≤ now.reach →
    ∃ cutoff, now.daysBefore? settings.retention.days.toNat = some cutoff ∧
      (∀ ledger : Ledger, ∃ after pruned,
        ledger.prune settings.retention.days now = .ok (after, pruned) ∧
        ledger.CleanedUp now cutoff after pruned) ∧
      ∀ machine held error, (start machine settings held now).2 ≠ .error (.retention error)
  /-- Beyond the calendar no ledger is cleaned, and no harvest takes place. -/
  beyond : now.reach < settings.retention.days.toNat →
    (∀ ledger : Ledger, ledger.prune settings.retention.days now = .error .cutoffOutOfRange) ∧
      ∀ machine network jobs newName held, run machine settings network jobs newName held now =
        (held, .error (.retention .cutoffOutOfRange))
  /-- Since 1970 the calendar reaches back ninety-six million days. -/
  present : .epoch ≤ now → 96465292 ≤ now.reach
  /-- It never reaches back two hundred million days. -/
  reach_le : now.reach ≤ 191491529

/-- Accepted settings retain within the calendar, and only there. -/
theorem retained_of_accepted (settings : Settings) (now : Instant)
    (accepted : settings.check = .ok settings) : Retained settings now := by
  obtain ⟨positive, unlimited⟩ := Settings.check_retention accepted
  have some : 0 < settings.retention.days.toNat := by
    refine Nat.pos_of_ne_zero fun zero => positive ?_
    exact UInt32.toNat_inj.1 zero
  refine ⟨positive, unlimited, fun within => ?_, fun beyond => ?_, Instant.reach_of_present,
    now.reach_le⟩
  · obtain ⟨cutoff, reached⟩ :=
      Option.isSome_iff_exists.1 ((Instant.daysBefore?_isSome_iff some).2 within)
    refine ⟨cutoff, reached, fun ledger => ledger.prune_of_reached reached,
      fun machine held error => ?_⟩
    obtain ⟨after, pruned, done, _⟩ := held.ledger.prune_of_reached reached
    rw [start, done]
    dsimp only
    split
    · simp
    · split_ifs <;> simp
  · have none : now.daysBefore? settings.retention.days.toNat = none := by
      refine Option.not_isSome_iff_eq_none.1 fun reached => ?_
      exact Int.not_lt.2 ((Instant.daysBefore?_isSome_iff some).1 reached) beyond
    have refused (ledger : Ledger) :
        ledger.prune settings.retention.days now = .error .cutoffOutOfRange := by
      rw [Ledger.prune, none]
    refine ⟨refused, fun machine network jobs newName held => ?_⟩
    rw [run, start, refused]

/-- The largest number of days that can be set. -/
def longest : Settings := { Settings.standard with retention := ⟨4294967295⟩ }

/-- The second of January 2020, some minutes past three. -/
def earlyTwenties : Instant :=
  { Instant.epoch with seconds := 1577934245, inRange := by decide, leap := by decide }

theorem retained_of_standard :
    Settings.standard.check = .ok Settings.standard ∧ longest.check = .ok longest ∧
      (∃ cutoff, earlyTwenties.daysBefore? 90 = some cutoff ∧
        ∃ after pruned, Ledger.mixedLedger.prune 90 earlyTwenties = .ok (after, pruned) ∧
          Ledger.mixedLedger.CleanedUp earlyTwenties cutoff after pruned) ∧
      ∀ machine network jobs newName held,
        run machine longest network jobs newName held earlyTwenties =
          (held, .error (.retention .cutoffOutOfRange)) := by
  have standard : Settings.standard.check = .ok Settings.standard := rfl
  have retained := retained_of_accepted .standard earlyTwenties standard
  have accepted : longest.check = .ok longest := retained.unlimited 4294967295 (by decide)
  obtain ⟨cutoff, reached, cleans, _⟩ := retained.within (by decide)
  refine ⟨standard, accepted, ⟨cutoff, reached, cleans Ledger.mixedLedger⟩, ?_⟩
  exact ((retained_of_accepted longest earlyTwenties accepted).beyond (by decide)).2

/-- An accepted retention that no clean-up survives. -/
theorem refused_of_longest :
    longest.check = .ok longest ∧ Instant.epoch ≤ earlyTwenties ∧
      Ledger.empty.prune longest.retention.days earlyTwenties = .error .cutoffOutOfRange :=
  ⟨rfl, by decide, rfl⟩

end Harvest

end MediaHarvest
