import MediaHarvest.Proofs.Ledger.Records

/-!
# Ledgers that differ in times only

What is stored carries the times at which it was written.  Two ledgers are `Alike` if the same can
be read under every key but for these times.  Recording a report keeps ledgers alike, whatever the
clock shows and whatever the states of the jobs are: of a job only the owner and the role go into
an execution.
-/

namespace MediaHarvest

/-- The job without the time of its last change. -/
def Job.undated (job : Job) : Job := { job with updatedAt := .epoch }

/-- The job without its state and the time of its last change. -/
def Job.stateless (job : Job) : Job := job.withState .ready .epoch

/-- The execution without the time at which it was recorded. -/
def Execution.undated (execution : Execution) : Execution := { execution with createdAt := .epoch }

/-- The latest record without the times at which it was made and renewed. -/
def Latest.undated (latest : Latest) : Latest :=
  { latest with createdAt := .epoch, updatedAt := .epoch }

theorem Job.eq_of_stateless {job other : Job} (same : job.stateless = other.stateless) :
    job = other.withState job.state job.updatedAt := by
  have back := congrArg (fun shown : Job => shown.withState job.state job.updatedAt) same
  exact back

theorem Execution.eq_of_undated {execution other : Execution}
    (same : execution.undated = other.undated) :
    execution = { other with createdAt := execution.createdAt } :=
  congrArg (fun shown : Execution => { shown with createdAt := execution.createdAt }) same

theorem Latest.eq_of_undated {latest other : Latest} (same : latest.undated = other.undated) :
    latest = { other with createdAt := latest.createdAt, updatedAt := latest.updatedAt } :=
  congrArg
    (fun shown : Latest =>
      { shown with createdAt := latest.createdAt, updatedAt := latest.updatedAt })
    same

namespace Ledger

/-! ## Equal views -/

section View

variable {α : Type} {first second : Except LedgerError (Option α)} {sight sight' : α → α}

/-- What was read, seen through a view. -/
def seen (sight : α → α) (read : Except LedgerError (Option α)) : Except LedgerError (Option α) :=
  read.map (Option.map sight)

/-- Two readings that look the same fail alike, find nothing or find what looks the same. -/
inductive SameView (sight sight' : α → α) :
    Except LedgerError (Option α) → Except LedgerError (Option α) → Prop where
  | unreadable (error : LedgerError) : SameView sight sight' (.error error) (.error error)
  | nothing : SameView sight sight' (.ok none) (.ok none)
  | found {left right : α} (same : sight left = sight' right) :
      SameView sight sight' (.ok (some left)) (.ok (some right))

theorem seen_eq_iff :
    seen sight first = seen sight' second ↔ SameView sight sight' first second := by
  constructor
  · intro same
    rcases first with error | left | left
    all_goals rcases second with error' | right | right
    all_goals try cases same
    · exact .unreadable error
    · exact .nothing
    · exact .found (Option.some.inj (Except.ok.inj same))
  · rintro (_ | _ | same)
    · rfl
    · rfl
    · exact congrArg (Except.ok ∘ some) same

end View

/-- The same can be read under every key, but for the times of writing; jobs are seen through
`sight`. -/
structure Alike (sight : Job → Job) (first second : Ledger) : Prop where
  jobs : ∀ key, seen sight (fetch Job.codec first.jobs key) =
    seen sight (fetch Job.codec second.jobs key)
  executions : ∀ key, seen Execution.undated (fetch Execution.codec first.executions key) =
    seen Execution.undated (fetch Execution.codec second.executions key)
  latest : ∀ key, seen Latest.undated (fetch Latest.codec first.latest key) =
    seen Latest.undated (fetch Latest.codec second.latest key)
  resources : first.resources = second.resources
  notes : first.notes = second.notes

variable {first second third : Ledger} {sight : Job → Job} {execution execution' : Execution}
  {latest latest' : Latest} {completion : Completion}

namespace Alike

theorem refl (sight : Job → Job) (ledger : Ledger) : Alike sight ledger ledger :=
  ⟨fun _ => rfl, fun _ => rfl, fun _ => rfl, rfl, rfl⟩

theorem symm (alike : Alike sight first second) : Alike sight second first where
  jobs := fun key => (alike.jobs key).symm
  executions := fun key => (alike.executions key).symm
  latest := fun key => (alike.latest key).symm
  resources := alike.resources.symm
  notes := alike.notes.symm

theorem trans (alike : Alike sight first second) (further : Alike sight second third) :
    Alike sight first third where
  jobs := fun key => (alike.jobs key).trans (further.jobs key)
  executions := fun key => (alike.executions key).trans (further.executions key)
  latest := fun key => (alike.latest key).trans (further.latest key)
  resources := alike.resources.trans further.resources
  notes := alike.notes.trans further.notes

/-! ## Recording -/

/-- A report tells of the same execution, or is refused for the same reason. -/
theorem prepare (alike : Alike Job.stateless first second) (completion : Completion)
    (now later : Instant) :
    (∃ error, first.prepare completion now = .error error ∧
        second.prepare completion later = .error error) ∨
      ∃ execution execution' resource, first.prepare completion now = .ok (execution, resource) ∧
        second.prepare completion later = .ok (execution', resource) ∧
        execution.undated = execution'.undated := by
  have jobs := seen_eq_iff.1 (alike.jobs (jobKey completion.job))
  have resources : second.resource? completion.resource = first.resource? completion.resource :=
    resource?_of_resources_eq alike.resources.symm _
  rw [Ledger.prepare, Ledger.prepare, job?, job?, resources]
  generalize fetch Job.codec first.jobs (jobKey completion.job) = known at jobs
  generalize fetch Job.codec second.jobs (jobKey completion.job) = known' at jobs
  cases jobs with
  | unreadable error => exact .inl ⟨.ledger error, rfl, rfl⟩
  | nothing => exact .inl ⟨.unknownJob completion.job, rfl, rfl⟩
  | @found job job' same =>
      cases first.resource? completion.resource with
      | error error => exact .inl ⟨.ledger error, rfl, rfl⟩
      | ok resource =>
          refine .inr ⟨_, _, resource, rfl, rfl, ?_⟩
          rw [Job.eq_of_stateless same]
          rfl

/-- Executions that differ in their time have the same key. -/
theorem executionKey_of_undated (same : execution.undated = execution'.undated) :
    executionKey execution.resource execution.measurements.job execution.kind =
      executionKey execution'.resource execution'.measurements.job execution'.kind := by
  rw [Execution.eq_of_undated same]

theorem putExecution (alike : Alike sight first second)
    (same : execution.undated = execution'.undated) :
    Alike sight (first.putExecution execution) (second.putExecution execution') where
  jobs := alike.jobs
  executions := by
    intro key
    rw [Ledger.putExecution, Ledger.putExecution,
      fetch_insert (Execution.codec_readsBack execution),
      fetch_insert (Execution.codec_readsBack execution'), executionKey_of_undated same]
    split
    · exact seen_eq_iff.2 (.found same)
    · exact alike.executions key
  latest := alike.latest
  resources := alike.resources
  notes := alike.notes

/-- The same execution is written to both ledgers, or to neither. -/
theorem append (alike : Alike sight first second) (same : execution.undated = execution'.undated) :
    (∃ error, first.append execution = .error error ∧ second.append execution' = .error error) ∨
      ∃ after after' fresh, first.append execution = .ok (after, fresh) ∧
        second.append execution' = .ok (after', fresh) ∧ Alike sight after after' := by
  have known := seen_eq_iff.1 (alike.executions
    (executionKey execution'.resource execution'.measurements.job execution'.kind))
  rw [Ledger.append, Ledger.append, execution?, execution?, executionKey_of_undated same]
  revert known
  generalize fetch Execution.codec first.executions _ = read
  generalize fetch Execution.codec second.executions _ = read'
  rintro (error | _ | _)
  · exact .inl ⟨error, rfl, rfl⟩
  · exact .inr ⟨_, _, true, rfl, rfl, alike.putExecution same⟩
  · exact .inr ⟨_, _, false, rfl, rfl, alike⟩

/-- The latest record is renewed in both ledgers, or in neither. -/
theorem renewal? (alike : Alike sight first second)
    (same : execution.undated = execution'.undated) (now later : Instant) :
    SameView Latest.undated Latest.undated (first.renewal? execution now)
      (second.renewal? execution' later) := by
  have key : execution.key = execution'.key := by rw [Execution.eq_of_undated same]; rfl
  have known := seen_eq_iff.1 (alike.latest (latestKey execution'.key))
  rw [Ledger.renewal?, Ledger.renewal?, latest?, latest?, key]
  revert known
  generalize fetch Latest.codec first.latest _ = read
  generalize fetch Latest.codec second.latest _ = read'
  rintro (error | _ | @⟨latest, latest', shown⟩)
  · exact .unreadable error
  · refine .found ?_
    rw [Execution.eq_of_undated same]
    rfl
  · have newer : latest.isSupersededBy execution = latest'.isSupersededBy execution' := by
      rw [Execution.eq_of_undated same, Latest.eq_of_undated shown]
      rfl
    simp only [ok_bind, newer]
    split
    · refine .found ?_
      rw [Execution.eq_of_undated same, Latest.eq_of_undated shown]
      rfl
    · exact .nothing

theorem renew (alike : Alike sight first second) (same : latest.undated = latest'.undated)
    (resource : Option Resource) (path : List String) :
    Alike sight (first.renew latest resource path) (second.renew latest' resource path) := by
  have key : latest.key = latest'.key := by rw [Latest.eq_of_undated same]; rfl
  have execution : latest.execution = latest'.execution := by rw [Latest.eq_of_undated same]
  have written : Alike sight (first.putLatest latest) (second.putLatest latest') := by
    refine ⟨alike.jobs, alike.executions, fun wanted => ?_, alike.resources, alike.notes⟩
    rw [putLatest, putLatest, fetch_insert (Latest.codec_readsBack latest),
      fetch_insert (Latest.codec_readsBack latest'), key]
    split
    · exact seen_eq_iff.2 (.found same)
    · exact alike.latest wanted
  cases resource with
  | none => exact written
  | some resource =>
      refine ⟨written.jobs, written.executions, written.latest, ?_, written.notes⟩
      simp only [Ledger.renew, putResource, execution]
      rw [written.resources]

/-- Recording a report keeps ledgers alike and gets the same answer from them, at whatever times it
is recorded. -/
theorem record (alike : Alike Job.stateless first second) (completion : Completion)
    (now later : Instant) :
    Alike Job.stateless (first.record completion now).1 (second.record completion later).1 ∧
      (first.record completion now).2 = (second.record completion later).2 := by
  rw [Ledger.record, Ledger.record]
  rcases alike.prepare completion now later with
    ⟨error, one, two⟩ | ⟨execution, execution', resource, one, two, same⟩
  · rw [one, two]
    exact ⟨alike, rfl⟩
  · rw [one, two]
    dsimp only
    have id : execution.id = execution'.id := by rw [Execution.eq_of_undated same]
    rcases alike.append same with ⟨error, one, two⟩ | ⟨after, after', fresh, one, two, appended⟩
    · rw [one, two]
      exact ⟨alike, rfl⟩
    · rw [one, two]
      dsimp only
      have renewal := appended.renewal? same now later
      generalize after.renewal? execution now = answer at renewal ⊢
      generalize after'.renewal? execution' later = answer' at renewal ⊢
      cases renewal with
      | unreadable error => exact ⟨appended, rfl⟩
      | nothing => exact ⟨appended, by rw [id]⟩
      | found shown => exact ⟨appended.renew shown resource _, by rw [id]⟩

end Alike

/-! ## Recording in order -/

/-- Records reports in order, at a time that does not matter, and counts those that are not
refused. -/
def recordInOrder (completions : List Completion) (ledger : Ledger) : Ledger × Nat :=
  completions.foldl
    (fun (ledger, count) completion =>
      let (after, answer) := ledger.record completion .epoch
      (after, if answer.isOk then count + 1 else count))
    (ledger, 0)

theorem recordInOrder_append (completions : List Completion) (completion : Completion)
    (ledger : Ledger) :
    ledger.recordInOrder (completions ++ [completion]) =
      let before := ledger.recordInOrder completions
      let (after, answer) := before.1.record completion .epoch
      (after, if answer.isOk then before.2 + 1 else before.2) := by
  rw [recordInOrder, List.foldl_append]
  rfl

end Ledger

end MediaHarvest
