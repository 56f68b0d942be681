import MediaHarvest.Proofs.Backlog.Runs

/-!
# Free numbers

As long as not every number is taken, the numbers that stand in one of the two partitions are those
below the next one.  So the next number is free, whatever was done with the backlog.
-/

namespace MediaHarvest.Backlog

/-- A number stands in one of the two partitions. -/
def Stored (backlog : Backlog) (number : UInt64) : Prop :=
  backlog.tasks.contains (Partition.wordKey number) = true ∨
    backlog.deadLetters.contains (Partition.wordKey number) = true

/-- Every number is taken. -/
def Full (backlog : Backlog) : Prop := ∀ number, backlog.Stored number

/-- The numbers that are taken are those below the next one, which the note tells. -/
structure Numbered (backlog : Backlog) : Prop where
  noted : backlog.Noted
  taken : backlog.Full ∨ ∀ number, backlog.Stored number ↔ number < backlog.next

theorem numbered_empty : empty.Numbered where
  noted := noted_empty
  taken := by
    right
    intro number
    constructor
    · rintro (stored | stored)
      · cases stored
      · cases stored
    · intro below
      exact absurd (UInt64.lt_iff_toNat_lt.1 below) (Nat.not_lt_zero _)

variable {backlog after : Backlog}

/-- A word below the next one is that one or below it, unless the next one is zero. -/
theorem lt_add_one_iff {number next : UInt64} (more : next + 1 ≠ 0) :
    number < next + 1 ↔ number < next ∨ number = next := by
  have value : (next + 1).toNat = next.toNat + 1 := by
    rw [UInt64.toNat_add]
    refine Nat.mod_eq_of_lt ?_
    have small := next.toNat_lt
    by_contra large
    have last : next.toNat + 1 = 2 ^ 64 := by
      simp only [UInt64.toNat_one] at large
      omega
    refine more (UInt64.toNat_inj.1 ?_)
    rw [UInt64.toNat_add, UInt64.toNat_one, last]
    rfl
  rw [UInt64.lt_iff_toNat_lt, UInt64.lt_iff_toNat_lt, ← UInt64.toNat_inj, value]
  omega

theorem stored_enqueue (task : Task) (number : UInt64) :
    (backlog.enqueue task).2.Stored number ↔ backlog.Stored number ∨ number = backlog.next := by
  rw [Stored, Stored, enqueue, SortedMap.contains, SortedMap.get?_insert]
  simp only [Partition.wordKey_inj]
  split
  · next same => simp [same]
  · next differ => simp [differ, SortedMap.contains]

theorem Numbered.enqueue (numbered : backlog.Numbered) (task : Task) :
    (backlog.enqueue task).2.Numbered where
  noted := noted_enqueue backlog task
  taken := by
    rcases numbered.taken with full | taken
    · exact .inl fun number => (stored_enqueue task number).2 (.inl (full number))
    · by_cases last : backlog.next + 1 = 0
      · left
        intro number
        rw [stored_enqueue, taken]
        have top : backlog.next.toNat + 1 = 2 ^ 64 := by
          have small := backlog.next.toNat_lt
          have value := congrArg UInt64.toNat last
          rw [UInt64.toNat_add, UInt64.toNat_one, UInt64.toNat_zero] at value
          omega
        have small := number.toNat_lt
        rw [UInt64.lt_iff_toNat_lt, ← UInt64.toNat_inj]
        omega
      · right
        intro number
        rw [stored_enqueue, taken]
        exact (lt_add_one_iff last).symm

/-- What is given up can be read, and the dead letter carries it under the same number. -/
theorem bury_eq_ok {number : UInt64} {reason : String} {now : Instant}
    (buried : backlog.bury number reason now = .ok after) :
    ∃ bytes message, backlog.tasks.get? (Partition.wordKey number) = some bytes ∧
      Wire.taskMessage.read bytes = .ok message ∧
      after = { backlog with
        deadLetters := backlog.deadLetters.insert (Partition.wordKey number)
          (Wire.deadLetter.write ⟨some message, reason, Int64.ofInt now.toMillis⟩)
        tasks := backlog.tasks.erase (Partition.wordKey number) } := by
  rw [bury] at buried
  cases found : backlog.tasks.get? (Partition.wordKey number) with
  | none =>
      rw [found] at buried
      cases buried
  | some bytes =>
      rw [found] at buried
      obtain ⟨message, read, buried⟩ := bind_eq_ok_iff.1 buried
      cases buried
      exact ⟨bytes, message, rfl, mapError_eq_ok_iff.1 read, rfl⟩

/-- Giving a task up leaves the numbers as they are. -/
theorem stored_bury {number : UInt64} {reason : String} {now : Instant}
    (buried : backlog.bury number reason now = .ok after) (other : UInt64) :
    after.Stored other ↔ backlog.Stored other := by
  obtain ⟨bytes, message, found, _, rfl⟩ := bury_eq_ok buried
  rw [Stored, Stored, SortedMap.contains, SortedMap.contains, SortedMap.get?_insert,
    SortedMap.get?_erase]
  simp only [Partition.wordKey_inj]
  split
  · next same => simp [same, SortedMap.contains, found]
  · exact Iff.rfl

theorem Numbered.bury (numbered : backlog.Numbered) {number : UInt64} {reason : String}
    {now : Instant} (buried : backlog.bury number reason now = .ok after) : after.Numbered where
  noted := by
    obtain ⟨bytes, message, _, _, rfl⟩ := bury_eq_ok buried
    exact numbered.noted
  taken := by
    have next : after.next = backlog.next := by
      obtain ⟨bytes, message, _, _, rfl⟩ := bury_eq_ok buried
      rfl
    rcases numbered.taken with full | taken
    · exact .inl fun other => (stored_bury buried other).2 (full other)
    · right
      intro other
      rw [stored_bury buried, taken, next]

/-- Every call keeps the numbering. -/
theorem Numbered.perform (numbered : backlog.Numbered) (call : Call) :
    (call.perform backlog).Numbered := by
  cases call with
  | enqueue task => exact numbered.enqueue task
  | bury number reason now =>
      rw [Call.perform]
      cases buried : backlog.bury number reason now with
      | error error => exact numbered
      | ok after => exact numbered.bury buried
  | look number => exact numbered
  | list limit => exact numbered
  | reopen =>
      rw [Call.perform, reopen_of_noted numbered.noted]
      exact numbered

/-- As long as there is a free number, the next one is free. -/
theorem Numbered.free (numbered : backlog.Numbered) (room : ¬ backlog.Full) :
    backlog.tasks.contains (Partition.wordKey backlog.next) = false := by
  rcases numbered.taken with full | taken
  · exact absurd full room
  · cases stored : backlog.tasks.contains (Partition.wordKey backlog.next) with
    | false => rfl
    | true => exact absurd ((taken _).1 (.inl stored)) (UInt64.lt_irrefl _)

/-! ## Use by others -/

/-- One state of the backlog comes from another by calls of the backlog. -/
def Used (backlog after : Backlog) : Prop :=
  ∃ calls : List Call, after = calls.foldl Call.perform backlog

theorem Used.refl (backlog : Backlog) : Used backlog backlog := ⟨[], rfl⟩

theorem used_perform (backlog : Backlog) (call : Call) : Used backlog (call.perform backlog) :=
  ⟨[call], rfl⟩

theorem Used.trans {middle : Backlog} (first : Used backlog middle) (second : Used middle after) :
    Used backlog after := by
  obtain ⟨calls, rfl⟩ := first
  obtain ⟨others, rfl⟩ := second
  exact ⟨calls ++ others, List.foldl_append.symm⟩

/-- Whoever uses the backlog, the numbering is kept. -/
theorem Used.numbered (used : Used backlog after) (numbered : backlog.Numbered) :
    after.Numbered := by
  obtain ⟨calls, rfl⟩ := used
  induction calls generalizing backlog with
  | nil => exact numbered
  | cons call calls ih => exact ih (numbered.perform call)

end MediaHarvest.Backlog
