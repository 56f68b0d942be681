import MediaHarvest.Ledger.Retention
import MediaHarvest.Proofs.SortedMap
import MediaHarvest.Proofs.Time.Order

/-!
# Clean-ups

A clean-up keeps the executions that were made at its cutoff or later, and whatever cannot be read,
byte for byte, and it drops exactly the others.  The longer the retention, the earlier the cutoff
and the less is dropped, so that nothing is left to drop for a clean-up that looks back as far.
-/

namespace MediaHarvest

/-! ## Counting days back -/

namespace Instant

variable {now cutoff later : Instant} {days more : Nat}

theorem ofParts?_eq_some_iff {seconds : Int} {nanos : Nat} {instant : Instant} :
    ofParts? seconds nanos = some instant ↔ instant.seconds = seconds ∧ instant.nanos = nanos := by
  constructor
  · intro made
    rw [ofParts?] at made
    split at made
    · cases made
      exact ⟨rfl, rfl⟩
    · cases made
  · rintro ⟨rfl, rfl⟩
    exact dif_pos ⟨instant.inRange, instant.nanos_lt, instant.leap⟩

/-- Outside of leap seconds, a number of days earlier the clock shows the same. -/
theorem daysBefore?_of_plain (plain : now.nanos < 1000000000) :
    now.daysBefore? days = some cutoff ↔
      cutoff.seconds = now.seconds - 86400 * days ∧ cutoff.nanos = now.nanos := by
  rw [daysBefore?, if_neg fun leap => Nat.not_le.2 plain leap.2]
  exact ofParts?_eq_some_iff

/-- Counting back more days leads to no later time. -/
theorem daysBefore?_antitone (fewer : days ≤ more) (reached : now.daysBefore? days = some later)
    (back : now.daysBefore? more = some cutoff) : cutoff ≤ later := by
  unfold daysBefore? at reached back
  rw [le_iff]
  split at reached <;> split at back
  all_goals
    obtain ⟨seconds, nanos⟩ := ofParts?_eq_some_iff.1 reached
    obtain ⟨seconds', nanos'⟩ := ofParts?_eq_some_iff.1 back
    omega

end Instant

namespace Ledger

variable {ledger : Ledger} {now cutoff earlier : Instant} {bytes key : Bytes} {days longer : UInt32}

/-! ## What is dropped -/

/-- What is stored can be read as something that was made before a time. -/
def Expired (cutoff : Instant) (bytes : Bytes) : Prop :=
  ∃ createdAt, createdAt? bytes = some createdAt ∧ createdAt < cutoff

theorem isExpired_iff : isExpired cutoff bytes = true ↔ Expired cutoff bytes := by
  rw [isExpired, Expired]
  cases createdAt? bytes with
  | none => simp
  | some createdAt => simp

instance (cutoff : Instant) (bytes : Bytes) : Decidable (Expired cutoff bytes) :=
  decidable_of_iff _ isExpired_iff

/-- What was made before a time was made before every later one. -/
theorem Expired.mono (expired : Expired earlier bytes) (order : earlier ≤ cutoff) :
    Expired cutoff bytes := by
  obtain ⟨createdAt, read, before⟩ := expired
  exact ⟨createdAt, read, fun after => before (Instant.le_trans order after)⟩

/-- The keys that a scan finds are those under which something expired is stored. -/
theorem mem_expiredKeys : key ∈ ledger.expiredKeys cutoff ↔
    ∃ bytes, ledger.executions.get? key = some bytes ∧ Expired cutoff bytes := by
  simp [expiredKeys, isExpired_iff, SortedMap.get?_eq_some_iff]

/-- Dropping the keys that a scan found is keeping what has not expired. -/
theorem executions_dropped (ledger : Ledger) (cutoff : Instant) :
    (ledger.expiredKeys cutoff).foldl (fun kept key => kept.erase key) ledger.executions =
      ledger.executions.filter fun _ bytes => !isExpired cutoff bytes := by
  apply SortedMap.ext_get?
  intro key
  rw [SortedMap.get?_foldl_erase, SortedMap.get?_filter]
  cases stored : ledger.executions.get? key with
  | none => split <;> rfl
  | some bytes =>
      have found : key ∈ ledger.expiredKeys cutoff ↔ isExpired cutoff bytes = true := by
        rw [mem_expiredKeys, stored, isExpired_iff]
        simp
      by_cases expired : isExpired cutoff bytes = true
      · rw [if_pos (found.2 expired), Option.filter_some, expired]
        rfl
      · rw [if_neg (mt found.1 expired), Option.filter_some, Bool.eq_false_iff.2 expired]
        rfl

/-- A scan finds as many keys as are dropped. -/
theorem length_expiredKeys (ledger : Ledger) (cutoff : Instant) :
    (ledger.expiredKeys cutoff).length +
        (ledger.executions.filter fun _ bytes => !isExpired cutoff bytes).size =
      ledger.executions.size := by
  rw [expiredKeys, List.length_map, SortedMap.size, SortedMap.size, SortedMap.filter,
    ← List.countP_eq_length_filter, ← List.countP_eq_length_filter,
    List.length_eq_countP_add_countP fun entry => isExpired cutoff entry.2]
  simp

/-- Something was stored under a key that is no longer there. -/
def Dropped (ledger after : Ledger) (key : Bytes) : Prop :=
  ledger.executions.contains key = true ∧ after.executions.contains key = false

/-- What a clean-up with a cutoff does: it keeps what has not expired, tells how much it looked at
and how much it dropped, notes the time, and leaves everything else as it is. -/
structure CleanedUp (ledger : Ledger) (now cutoff : Instant) (after : Ledger) (pruned : Pruned) :
    Prop where
  executions : ∀ key bytes, after.executions.get? key = some bytes ↔
    ledger.executions.get? key = some bytes ∧ ¬ Expired cutoff bytes
  scanned : pruned.scanned = ledger.executions.size
  pruned : pruned.pruned + after.executions.size = ledger.executions.size
  jobs : after.jobs = ledger.jobs
  resources : after.resources = ledger.resources
  latest : after.latest = ledger.latest
  notes : after.notes = ledger.notes.insert pruneNote (Text.utf8 (Time.renderOffset now))

variable {after : Ledger} {pruned : Pruned}

variable (ledger) in
/-- A clean-up within the calendar succeeds. -/
theorem prune_of_reached (reached : now.daysBefore? days.toNat = some cutoff) :
    ∃ after pruned, ledger.prune days now = .ok (after, pruned) ∧
      CleanedUp ledger now cutoff after pruned := by
  rw [prune, reached]
  refine ⟨_, _, rfl, ?_⟩
  constructor
  · intro key bytes
    rw [executions_dropped, SortedMap.get?_filter, Option.filter_eq_some_iff, ← isExpired_iff]
    simp
  · rfl
  · rw [executions_dropped]
    exact length_expiredKeys ledger cutoff
  all_goals rfl

/-- What a clean-up dropped had expired. -/
theorem CleanedUp.dropped_iff (cleaned : CleanedUp ledger now cutoff after pruned) :
    Dropped ledger after key ↔
      ∃ bytes, ledger.executions.get? key = some bytes ∧ Expired cutoff bytes := by
  rw [Dropped, SortedMap.contains, SortedMap.contains, Option.isSome_eq_false_iff,
    Option.isNone_iff_eq_none, Option.isSome_iff_exists]
  constructor
  · rintro ⟨⟨bytes, stored⟩, gone⟩
    refine ⟨bytes, stored, Decidable.byContradiction fun fresh => ?_⟩
    have still := (cleaned.executions key bytes).2 ⟨stored, fresh⟩
    rw [gone] at still
    cases still
  · rintro ⟨bytes, stored, expired⟩
    refine ⟨⟨bytes, stored⟩, Option.eq_none_iff_forall_not_mem.2 fun other still => ?_⟩
    obtain ⟨same, fresh⟩ := (cleaned.executions key other).1 still
    rw [stored] at same
    cases same
    exact fresh expired

/-- After a clean-up there is nothing to do for one that looks back as far or farther. -/
theorem CleanedUp.again (cleaned : CleanedUp ledger now cutoff after pruned)
    (order : earlier ≤ cutoff) (reached : now.daysBefore? longer.toNat = some earlier) :
    after.prune longer now = .ok (after, ⟨after.executions.size, 0⟩) := by
  have none : after.expiredKeys earlier = [] := by
    refine List.eq_nil_iff_forall_not_mem.2 fun key found => ?_
    obtain ⟨bytes, stored, expired⟩ := mem_expiredKeys.1 found
    exact ((cleaned.executions key bytes).1 stored).2 (expired.mono order)
  have stamped : after.notes.insert pruneNote (Text.utf8 (Time.renderOffset now)) = after.notes := by
    rw [cleaned.notes, SortedMap.insert_insert]
  rw [prune, reached]
  dsimp only
  rw [none, stamped]
  rfl

/-- A clean-up drops exactly the executions that can be read and were made before its cutoff.  The
same clean-up finds nothing more to drop, and one that looks back farther would have dropped no
others. -/
theorem cleanedUp_prune (ledger : Ledger) (days : UInt32) (now cutoff : Instant)
    (reached : now.daysBefore? days.toNat = some cutoff) :
    ∃ after pruned, ledger.prune days now = .ok (after, pruned) ∧
      CleanedUp ledger now cutoff after pruned ∧
      ∀ longer earlier, days ≤ longer → now.daysBefore? longer.toNat = some earlier →
        after.prune longer now = .ok (after, ⟨after.executions.size, 0⟩) ∧
        ∃ rest fewer, ledger.prune longer now = .ok (rest, fewer) ∧
          ∀ key, Dropped ledger rest key → Dropped ledger after key := by
  obtain ⟨after, pruned, done, cleaned⟩ := prune_of_reached ledger reached
  refine ⟨after, pruned, done, cleaned, fun longer earlier fewer back => ?_⟩
  have order : earlier ≤ cutoff := Instant.daysBefore?_antitone (UInt32.le_iff_toNat_le.1 fewer)
    reached back
  obtain ⟨rest, less, doneToo, cleanedToo⟩ := prune_of_reached ledger back
  refine ⟨cleaned.again order back, rest, less, doneToo, fun key dropped => ?_⟩
  obtain ⟨bytes, stored, expired⟩ := cleanedToo.dropped_iff.1 dropped
  exact cleaned.dropped_iff.2 ⟨bytes, stored, expired.mono order⟩

/-- An execution of which only its time is kept. -/
def madeAt (time : String) : Bytes := Text.utf8 ("\x7b\"created_at\":\"" ++ time ++ "\"\x7d")

/-- A ledger with an execution from before 1970, one from its start, and something unreadable. -/
def mixedLedger : Ledger :=
  { Ledger.empty with
    executions := .ofList [([1], madeAt "1969-12-31T23:59:59.999Z"),
      ([2], madeAt "1970-01-01T00:00:00Z"), ([3], [0xff])] }

/-- Ninety days after the start of 1970. -/
def ninetiethDay : Instant :=
  { Instant.epoch with seconds := 90 * 86400, inRange := by decide, leap := by decide }

theorem cleanedUp_prune_mixed :
    ∃ after, mixedLedger.prune 90 ninetiethDay = .ok (after, ⟨3, 1⟩) ∧
      Dropped mixedLedger after [1] ∧
      after.executions.get? [2] = some (madeAt "1970-01-01T00:00:00Z") ∧
      after.executions.get? [3] = some [0xff] ∧
      after.prune 91 ninetiethDay = .ok (after, ⟨after.executions.size, 0⟩) ∧
      ∃ rest fewer, mixedLedger.prune 91 ninetiethDay = .ok (rest, fewer) ∧
        ∀ key, Dropped mixedLedger rest key → Dropped mixedLedger after key := by
  have reached : ninetiethDay.daysBefore? (90 : UInt32).toNat = some .epoch :=
    (Instant.daysBefore?_of_plain (by decide)).2 ⟨by decide, rfl⟩
  obtain ⟨after, pruned, done, cleaned, again⟩ :=
    cleanedUp_prune mixedLedger 90 ninetiethDay .epoch reached
  have told : (mixedLedger.prune 90 ninetiethDay).toOption.map Prod.snd = some ⟨3, 1⟩ := by
    decide +kernel
  rw [done] at told
  obtain rfl : pruned = ⟨3, 1⟩ := Option.some.inj told
  refine ⟨after, done, ?_, ?_, ?_, again 91 _ (by decide) rfl⟩
  · exact cleaned.dropped_iff.2 ⟨madeAt "1969-12-31T23:59:59.999Z", by decide +kernel,
      by decide +kernel⟩
  · exact (cleaned.executions ..).2 ⟨by decide +kernel, by decide +kernel⟩
  · exact (cleaned.executions ..).2 ⟨by decide +kernel, by decide +kernel⟩

end Ledger

end MediaHarvest
