import MediaHarvest.Ledger.Basic
import MediaHarvest.Proofs.Ledger.Codecs

/-!
# Jobs in the ledger

A job that was written is found under its own name and changes nothing under any other.  A ledger
in which every job stands under its own name is `Filed`; in such a ledger a change of the state of
a job is seen under that name, and nowhere else.
-/

namespace MediaHarvest.Ledger

open Json

variable {ledger after : Ledger} {id : String} {job : Job} {now : Instant}

/-! ## What is written -/

/-- What was written is read under its key; all else is as before. -/
theorem fetch_insert {α : Type} {codec : Codec α} {value : α} (law : codec.ReadsBack 127 value)
    (partition : Partition) (key wanted : Bytes) :
    fetch codec (partition.insert key (codec.writeText value)) wanted =
      if wanted = key then .ok (some value) else fetch codec partition wanted := by
  rw [fetch, SortedMap.get?_insert]
  by_cases same : wanted = key
  · simp only [if_pos same]
    rw [readValue, law.readText]
    rfl
  · simp only [if_neg same]
    rfl

theorem jobKey_inj {first second : String} : jobKey first = jobKey second ↔ first = second := by
  constructor
  · intro same
    rw [jobKey, jobKey, Text.utf8_append, Text.utf8_append] at same
    exact Text.utf8_injective (List.append_cancel_left same)
  · rintro rfl
    rfl

/-- A job that was written is the one that is found under its name. -/
theorem job?_putJob (whole : job.limits.Whole) (id : String) :
    (ledger.putJob job).job? id = if id = job.id then .ok (some job) else ledger.job? id := by
  rw [job?, putJob, fetch_insert (Job.codec_readsBack whole)]
  simp only [jobKey_inj]
  rfl

/-- Only jobs with whole limits are found. -/
theorem whole_of_job? (found : ledger.job? id = .ok (some job)) : job.limits.Whole := by
  rw [job?, fetch] at found
  split at found
  · cases found
  · next bytes stored =>
    cases read : readValue Job.codec bytes with
    | error error =>
        rw [read] at found
        cases found
    | ok value =>
        rw [read] at found
        cases found
        exact Job.codec_yields.of_readText (mapError_eq_ok_iff.1 read)

/-! ## Ledgers in order -/

/-- Every job stands under its own name. -/
def Filed (ledger : Ledger) : Prop :=
  ∀ ⦃id job⦄, ledger.job? id = .ok (some job) → job.id = id

theorem filed_empty : empty.Filed := by
  intro id job found
  cases found

theorem Filed.putJob (filed : ledger.Filed) (whole : job.limits.Whole) :
    (ledger.putJob job).Filed := by
  intro id other found
  rw [job?_putJob whole] at found
  split at found
  · next same =>
    cases found
    exact same.symm
  · exact filed found

/-- A ledger with the same jobs is in order as well. -/
theorem Filed.of_jobs_eq (filed : ledger.Filed) (same : after.jobs = ledger.jobs) :
    after.Filed := by
  intro id job found
  rw [job?, same] at found
  exact filed found

/-! ## Changes of state -/

theorem job_eq_ok_iff : ledger.job id = .ok job ↔ ledger.job? id = .ok (some job) := by
  rw [Ledger.job]
  constructor
  · intro found
    obtain ⟨answer, read, found⟩ := bind_eq_ok_iff.1 found
    cases answer with
    | none => cases found
    | some other =>
        cases found
        exact read
  · intro found
    rw [found]
    rfl

/-- One job was replaced by another state of itself. -/
structure Restated (ledger after : Ledger) (id : String) (before job : Job) : Prop where
  was : ledger.job? id = .ok (some before)
  is : after.job? id = .ok (some job)
  others : ∀ other, other ≠ id → after.job? other = ledger.job? other
  /-- Every job stands under its own name. -/
  filed : after.Filed
  resources : after.resources = ledger.resources
  executions : after.executions = ledger.executions
  latest : after.latest = ledger.latest

theorem Restated.refl (filed : ledger.Filed) (found : ledger.job? id = .ok (some job)) :
    Restated ledger ledger id job job :=
  ⟨found, found, fun _ _ => rfl, filed, rfl, rfl, rfl⟩

theorem restated_putJob (filed : ledger.Filed) (found : ledger.job? id = .ok (some job))
    (state : JobState) :
    Restated ledger (ledger.putJob (job.withState state now)) id job (job.withState state now) := by
  have whole : (job.withState state now).limits.Whole := (whole_of_job? found : job.limits.Whole)
  have named : (job.withState state now).id = id := (filed found : job.id = id)
  refine ⟨found, ?_, ?_, filed.putJob whole, rfl, rfl, rfl⟩
  · rw [job?_putJob whole, if_pos named.symm]
  · intro other differ
    rw [job?_putJob whole, named, if_neg differ]

/-- The job that a move leaves behind. -/
def moved (job : Job) (sources : List JobState) (target : JobState) (now : Instant) : Job :=
  if job.state = target ∨ job.state ∉ sources then job else job.withState target now

/-- A move leaves the job as it is or in its new state. -/
theorem moved_eq (job : Job) (sources : List JobState) (target : JobState) (now : Instant) :
    moved job sources target now = job ∨
      moved job sources target now = job.withState target now := by
  rw [moved]
  split
  · exact .inl rfl
  · exact .inr rfl

/-- A move of a stored job succeeds, and leaves the moved job behind. -/
theorem moveJob_of_stored (filed : ledger.Filed) (found : ledger.job? id = .ok (some job))
    (sources : List JobState) (target : JobState) (now : Instant) :
    ∃ after, ledger.moveJob id sources target now = .ok (after, moved job sources target now) ∧
      Restated ledger after id job (moved job sources target now) := by
  rw [moveJob, job_eq_ok_iff.2 found, ok_bind, moved]
  split
  · exact ⟨ledger, rfl, .refl filed found⟩
  · exact ⟨_, rfl, restated_putJob filed found target⟩

/-- A move that succeeds is one of a stored job. -/
theorem stored_of_moveJob {sources : List JobState} {target : JobState}
    (done : ledger.moveJob id sources target now = .ok (after, job)) :
    ∃ before, ledger.job? id = .ok (some before) := by
  obtain ⟨before, found, _⟩ := bind_eq_ok_iff.1 done
  exact ⟨before, job_eq_ok_iff.1 found⟩

/-- A new state of a stored job is written. -/
theorem setJobState_of_stored (filed : ledger.Filed) (found : ledger.job? id = .ok (some job))
    (state : JobState) (now : Instant) :
    ∃ after, ledger.setJobState id state now = .ok (after, job.withState state now) ∧
      Restated ledger after id job (job.withState state now) := by
  rw [setJobState, job_eq_ok_iff.2 found, ok_bind]
  exact ⟨_, rfl, restated_putJob filed found state⟩

end MediaHarvest.Ledger
