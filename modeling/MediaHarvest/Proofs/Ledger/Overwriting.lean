import MediaHarvest.Proofs.Ledger.Records

/-!
# Records of jobs that are overwritten

The record of a job can be damaged or taken away by others, and put back.  A job that is written
stands where the overwritten bytes stood, so it does not matter what these were; and what is done
for one job goes together with a write of another in either order.
-/

namespace MediaHarvest.Ledger

variable {ledger after : Ledger} {id : String} {job record : Job} {now : Instant}

/-- The record of a job is missing or cannot be read. -/
def Lost (ledger : Ledger) (id : String) : Prop := ∀ job, ledger.job? id ≠ .ok (some job)

/-- A lost record is refused. -/
theorem Lost.refused (lost : ledger.Lost id) : ∃ error, ledger.job id = .error error := by
  cases read : ledger.job id with
  | error error => exact ⟨error, rfl⟩
  | ok job => exact absurd (job_eq_ok_iff.1 read) (lost job)

/-- Other bytes, or none, are put in place of the record of a job. -/
def overwrite (ledger : Ledger) (id : String) : Option Bytes → Ledger
  | none => { ledger with jobs := ledger.jobs.erase (jobKey id) }
  | some bytes => { ledger with jobs := ledger.jobs.insert (jobKey id) bytes }

theorem job?_overwrite_of_ne {other : String} (differ : other ≠ id) (ledger : Ledger)
    (bytes : Option Bytes) : (ledger.overwrite id bytes).job? other = ledger.job? other := by
  have apart : jobKey other ≠ jobKey id := fun same => differ (jobKey_inj.1 same)
  cases bytes with
  | none =>
      rw [job?, job?, overwrite, fetch, fetch, SortedMap.get?_erase, if_neg apart]
  | some bytes =>
      rw [job?, job?, overwrite, fetch, fetch, SortedMap.get?_insert, if_neg apart]

/-- What is read after an overwrite are the new bytes. -/
theorem job?_overwrite (ledger : Ledger) (id : String) (bytes : Option Bytes) :
    (ledger.overwrite id bytes).job? id =
      match bytes with
      | none => .ok none
      | some bytes => some <$> readValue Job.codec bytes := by
  cases bytes with
  | none => rw [job?, overwrite, fetch, SortedMap.get?_erase, if_pos rfl]
  | some bytes => rw [job?, overwrite, fetch, SortedMap.get?_insert, if_pos rfl]

/-- Only a record that can be read is found after an overwrite. -/
theorem job?_overwrite_eq_ok_iff {bytes : Option Bytes} :
    (ledger.overwrite id bytes).job? id = .ok (some job) ↔
      ∃ text, bytes = some text ∧ readValue Job.codec text = .ok job := by
  rw [job?_overwrite]
  cases bytes with
  | none => simp
  | some text =>
      cases read : readValue Job.codec text with
      | error error => simp [read]
      | ok other => simp [read]

theorem executions_overwrite (ledger : Ledger) (id : String) (bytes : Option Bytes) :
    (ledger.overwrite id bytes).executions = ledger.executions := by
  cases bytes <;> rfl

/-- If what is put in place is a record of the job, every job stands under its own name. -/
theorem Filed.overwrite (filed : ledger.Filed) {bytes : Option Bytes}
    (named : ∀ text job, bytes = some text → readValue Job.codec text = .ok job → job.id = id) :
    (ledger.overwrite id bytes).Filed := by
  intro other job found
  by_cases same : other = id
  · subst same
    obtain ⟨text, put, read⟩ := job?_overwrite_eq_ok_iff.1 found
    exact named text job put read
  · rw [job?_overwrite_of_ne same] at found
    exact filed found

/-! ## Writes of the same job -/

/-- What stood in the place of a job that is written does not matter. -/
theorem putJob_overwrite (ledger : Ledger) (record : Job) (bytes : Option Bytes) :
    (ledger.overwrite record.id bytes).putJob record = ledger.putJob record := by
  cases bytes with
  | none =>
      rw [overwrite, putJob, putJob]
      dsimp only
      rw [SortedMap.insert_erase]
  | some bytes =>
      rw [overwrite, putJob, putJob]
      dsimp only
      rw [SortedMap.insert_insert]

theorem putJob_putJob (same : job.id = record.id) (ledger : Ledger) :
    (ledger.putJob job).putJob record = ledger.putJob record := by
  rw [putJob, putJob, putJob]
  dsimp only
  rw [same, SortedMap.insert_insert]

/-- A move of the job that is written afterwards does not matter. -/
theorem putJob_of_moved {sources : List JobState} {target : JobState} (filed : ledger.Filed)
    (moves : ledger.moveJob record.id sources target now = .ok (after, job)) :
    after.putJob record = ledger.putJob record := by
  rw [moveJob] at moves
  obtain ⟨stored, read, moves⟩ := bind_eq_ok_iff.1 moves
  split at moves
  · cases moves
    rfl
  · cases moves
    have named : stored.id = record.id := filed (job_eq_ok_iff.1 read)
    exact putJob_putJob (show (stored.withState target now).id = record.id from named) ledger

/-! ## Writes of another job -/

section Apart

variable (differ : id ≠ record.id)
include differ

theorem putJob_comm (named : job.id = id) (ledger : Ledger) :
    (ledger.putJob record).putJob job = (ledger.putJob job).putJob record := by
  have apart : jobKey record.id ≠ jobKey job.id := fun same =>
    differ (named.symm.trans (jobKey_inj.1 same).symm)
  rw [putJob, putJob, putJob, putJob]
  dsimp only
  rw [SortedMap.insert_comm apart]

theorem overwrite_putJob (ledger : Ledger) (bytes : Option Bytes) :
    (ledger.putJob record).overwrite id bytes = (ledger.overwrite id bytes).putJob record := by
  have apart : jobKey record.id ≠ jobKey id := fun same => differ (jobKey_inj.1 same).symm
  cases bytes with
  | none =>
      rw [overwrite, overwrite, putJob, putJob]
      dsimp only
      rw [SortedMap.insert_erase_comm (Ne.symm apart)]
  | some bytes =>
      rw [overwrite, overwrite, putJob, putJob]
      dsimp only
      rw [SortedMap.insert_comm apart]

variable (whole : record.limits.Whole)
include whole

/-- The write of one job is not seen by another. -/
theorem job?_putJob_of_ne (ledger : Ledger) : (ledger.putJob record).job? id = ledger.job? id :=
  (job?_putJob whole id).trans (if_neg differ)

theorem job_putJob_of_ne (ledger : Ledger) : (ledger.putJob record).job id = ledger.job id := by
  rw [Ledger.job, Ledger.job, job?_putJob_of_ne differ whole]

theorem moveJob_putJob (filed : ledger.Filed) (sources : List JobState) (target : JobState)
    (now : Instant) :
    (ledger.putJob record).moveJob id sources target now =
      (ledger.moveJob id sources target now).map fun moved =>
        (moved.1.putJob record, moved.2) := by
  rw [moveJob, moveJob, job_putJob_of_ne differ whole]
  cases read : ledger.job id with
  | error error => rfl
  | ok job =>
      have named : job.id = id := filed (job_eq_ok_iff.1 read)
      rw [ok_bind, ok_bind]
      split
      · rfl
      · dsimp only
        rw [putJob_comm differ (show (job.withState target now).id = id from named)]
        rfl

theorem setJobState_putJob (filed : ledger.Filed) (state : JobState) (now : Instant) :
    (ledger.putJob record).setJobState id state now =
      (ledger.setJobState id state now).map fun moved => (moved.1.putJob record, moved.2) := by
  rw [setJobState, setJobState, job_putJob_of_ne differ whole]
  cases read : ledger.job id with
  | error error => rfl
  | ok job =>
      have named : job.id = id := filed (job_eq_ok_iff.1 read)
      rw [ok_bind, ok_bind]
      dsimp only
      rw [putJob_comm differ (show (job.withState state now).id = id from named)]
      rfl

end Apart

/-! ## Recordings -/

variable {completion : Completion}

/-- What is recorded does not depend on the write of a job, if what is prepared does not. -/
theorem record_putJob_of_prepare
    (prepares : (ledger.putJob record).prepare completion now = ledger.prepare completion now) :
    (ledger.putJob record).record completion now =
      ((ledger.record completion now).1.putJob record, (ledger.record completion now).2) := by
  have appends (execution : Execution) : (ledger.putJob record).append execution =
      (ledger.append execution).map fun added => (added.1.putJob record, added.2) := by
    have known : (ledger.putJob record).execution? execution.resource
        execution.measurements.job execution.kind =
      ledger.execution? execution.resource execution.measurements.job execution.kind := rfl
    rw [append, append, known]
    cases ledger.execution? execution.resource execution.measurements.job execution.kind with
    | error error => rfl
    | ok known => cases known <;> rfl
  rw [Ledger.record, Ledger.record, prepares]
  cases ledger.prepare completion now with
  | error error => rfl
  | ok prepared =>
      obtain ⟨execution, resource⟩ := prepared
      dsimp only
      rw [appends]
      cases ledger.append execution with
      | error error => rfl
      | ok appended =>
          obtain ⟨after, fresh⟩ := appended
          have renews : (after.putJob record).renewal? execution now =
              after.renewal? execution now := rfl
          dsimp only [Except.map]
          rw [renews]
          cases after.renewal? execution now with
          | error error => rfl
          | ok latest =>
              cases latest with
              | none => rfl
              | some latest => cases resource <;> rfl

/-- A report for another job is recorded alike. -/
theorem record_putJob (differ : completion.job ≠ record.id) (whole : record.limits.Whole)
    (ledger : Ledger) (now : Instant) :
    (ledger.putJob record).record completion now =
      ((ledger.record completion now).1.putJob record, (ledger.record completion now).2) := by
  refine record_putJob_of_prepare ?_
  rw [prepare, prepare, job?_putJob_of_ne differ whole]
  rfl

/-- Of the record of a job only the owner and the role go into what is recorded. -/
theorem record_putJob_of_found (whole : record.limits.Whole) {last : Job}
    (own : completion.job = record.id) (found : ledger.job? record.id = .ok (some last))
    (owner : last.owner = record.owner) (role : last.role = record.role) (now : Instant) :
    (ledger.putJob record).record completion now =
      ((ledger.record completion now).1.putJob record, (ledger.record completion now).2) := by
  refine record_putJob_of_prepare ?_
  have same (active : Bool) : Execution.ofCompletion completion record active now =
      .ofCompletion completion last active now := by
    rw [Execution.ofCompletion, Execution.ofCompletion, owner, role]
  have written : (ledger.putJob record).job? record.id = .ok (some record) :=
    (job?_putJob whole record.id).trans (if_pos rfl)
  have about : (ledger.putJob record).resource? completion.resource =
      ledger.resource? completion.resource := rfl
  rw [prepare, prepare, own, written, found, about]
  cases ledger.resource? completion.resource with
  | error error => rfl
  | ok resource => exact congrArg (fun execution => Except.ok (execution, resource)) (same _)

/-- Without the record of its job a report is not recorded. -/
theorem record_of_lost (lost : ledger.Lost completion.job) (now : Instant) :
    ∃ error, ledger.record completion now = (ledger, .error error) := by
  rw [Ledger.record, prepare]
  cases read : ledger.job? completion.job with
  | error error => exact ⟨_, rfl⟩
  | ok answer =>
      cases answer with
      | none => exact ⟨_, rfl⟩
      | some job => exact absurd read (lost job)

end MediaHarvest.Ledger
