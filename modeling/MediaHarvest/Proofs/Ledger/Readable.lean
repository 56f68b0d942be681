import MediaHarvest.Proofs.Ledger.Alike
import MediaHarvest.Proofs.Ledger.Records
import MediaHarvest.Proofs.Ledger.Retention

/-!
# Readable ledgers

In a ledger whose resources, executions and latest records can be read, every report on a stored job
is recorded.  Nothing that is written there is unreadable, and a clean-up only drops.
-/

namespace MediaHarvest.Ledger

open Json

variable {ledger after : Ledger}

/-- Every resource, every execution and every latest record can be read. -/
structure Readable (ledger : Ledger) : Prop where
  resources : ∀ id, ∃ resource, ledger.resource? id = .ok resource
  executions : ∀ resource job kind, ∃ execution,
    ledger.execution? resource job kind = .ok execution
  latest : ∀ key, ∃ latest, ledger.latest? key = .ok latest

/-- Nothing of that kind is stored. -/
theorem readable_of_bare (resources : ledger.resources = ∅) (executions : ledger.executions = ∅)
    (latest : ledger.latest = ∅) : ledger.Readable where
  resources := fun id => ⟨none, resource?_of_bare resources id⟩
  executions := fun resource job kind => ⟨none, execution?_of_bare executions resource job kind⟩
  latest := fun key => ⟨none, latest?_of_bare latest key⟩

/-- Jobs and notes do not matter. -/
theorem Readable.of_same (readable : ledger.Readable) (resources : after.resources = ledger.resources)
    (executions : after.executions = ledger.executions) (latest : after.latest = ledger.latest) :
    after.Readable where
  resources := by
    intro id
    rw [resource?_of_resources_eq resources]
    exact readable.resources id
  executions := by
    intro resource job kind
    rw [execution?_of_executions_eq executions]
    exact readable.executions resource job kind
  latest := by
    intro key
    rw [latest?_of_latest_eq latest]
    exact readable.latest key

/-- Of what was put differently but is seen as the same, the same can be read. -/
theorem ok_of_seen {α : Type} {sight : α → α} {first second : Except LedgerError (Option α)}
    (same : seen sight first = seen sight second) (read : ∃ found, first = .ok found) :
    ∃ found, second = .ok found := by
  rcases read with ⟨found, rfl⟩
  cases seen_eq_iff.1 same with
  | nothing => exact ⟨_, rfl⟩
  | found _ => exact ⟨_, rfl⟩

theorem Readable.of_alike {sight : Job → Job} (readable : ledger.Readable)
    (alike : Alike sight ledger after) : after.Readable where
  resources := by
    intro id
    rw [resource?_of_resources_eq alike.resources.symm]
    exact readable.resources id
  executions := fun resource job kind =>
    ok_of_seen (alike.executions _) (readable.executions resource job kind)
  latest := fun key => ok_of_seen (alike.latest _) (readable.latest key)

/-! ## What is written -/

theorem Readable.putResource (readable : ledger.Readable) (resource : Resource) :
    (ledger.putResource resource).Readable where
  resources := by
    intro id
    rw [resource?_putResource]
    split
    · exact ⟨some resource, rfl⟩
    · exact readable.resources id
  executions := readable.executions
  latest := readable.latest

theorem Readable.putResources (resources : List Resource) (ledger : Ledger)
    (readable : ledger.Readable) :
    (resources.foldl (fun ledger resource => ledger.putResource resource) ledger).Readable := by
  induction resources generalizing ledger with
  | nil => exact readable
  | cons resource rest ih => exact ih _ (readable.putResource resource)

theorem Readable.putLatest (readable : ledger.Readable) (latest : Latest) :
    (ledger.putLatest latest).Readable where
  resources := readable.resources
  executions := readable.executions
  latest := by
    intro key
    rw [latest?_putLatest]
    split
    · exact ⟨some latest, rfl⟩
    · exact readable.latest key

theorem Readable.appended {execution : Execution} (readable : ledger.Readable)
    (appended : Appended ledger after execution) : after.Readable where
  resources := by
    intro id
    rw [resource?_of_resources_eq appended.resources]
    exact readable.resources id
  executions := by
    intro resource job kind
    rcases readable.executions resource job kind with ⟨known, read⟩
    exact appended.readable read
  latest := by
    intro key
    rw [latest?_of_latest_eq appended.latest]
    exact readable.latest key

theorem Readable.renew (readable : ledger.Readable) (latest : Latest) (resource : Option Resource)
    (path : List String) : (ledger.renew latest resource path).Readable := by
  cases resource with
  | none => exact readable.putLatest latest
  | some resource => exact (readable.putLatest latest).putResource _

theorem Readable.record (readable : ledger.Readable) (completion : Completion) (now : Instant) :
    (ledger.record completion now).1.Readable := by
  have written := ledger.written_record completion now
  generalize (ledger.record completion now).1 = after at written ⊢
  cases written with
  | nothing => exact readable
  | appended found appended => exact readable.appended appended
  | renewed found about appended renewal => exact (readable.appended appended).renew _ _ _

/-! ## What is dropped -/

/-- What can be read can be read, or is missing, after some of it was dropped. -/
theorem fetch_filter {α : Type} {codec : Codec α} {partition : Partition} {key : Bytes}
    {found : Option α} (read : fetch codec partition key = .ok found)
    (keep : Bytes → Bytes → Bool) :
    ∃ left, fetch codec (partition.filter keep) key = .ok left := by
  rw [fetch]
  cases kept : (partition.filter keep).get? key with
  | none => exact ⟨none, rfl⟩
  | some bytes =>
      rw [SortedMap.get?_filter, Option.filter_eq_some_iff] at kept
      rw [fetch, kept.1] at read
      exact ⟨found, read⟩

/-- A clean-up leaves a readable ledger readable. -/
theorem Readable.prune {days : UInt32} {now : Instant} {pruned : Pruned}
    (readable : ledger.Readable) (done : ledger.prune days now = .ok (after, pruned)) :
    after.Readable := by
  rw [Ledger.prune] at done
  split at done
  · cases done
  · cases done
    constructor
    · exact readable.resources
    · intro resource job kind
      rcases readable.executions resource job kind with ⟨known, read⟩
      rw [execution?, executions_dropped]
      exact fetch_filter read _
    · exact readable.latest

/-- A clean-up drops neither jobs nor resources. -/
theorem kept_of_prune {days : UInt32} {now : Instant} {pruned : Pruned}
    (done : ledger.prune days now = .ok (after, pruned)) :
    after.jobs = ledger.jobs ∧ after.resources = ledger.resources := by
  rw [Ledger.prune] at done
  split at done
  · cases done
  · cases done
    exact ⟨rfl, rfl⟩

/-! ## Recording -/

theorem renewal?_of_readable (readable : ledger.Readable) (execution : Execution) (now : Instant) :
    ∃ next, ledger.renewal? execution now = .ok next := by
  rcases readable.latest execution.key with ⟨stored, found⟩
  rw [renewal?, found, ok_bind]
  cases stored with
  | none => exact ⟨_, rfl⟩
  | some latest =>
      dsimp only
      split
      · exact ⟨_, rfl⟩
      · exact ⟨_, rfl⟩

/-- In a readable ledger a report on a stored job is recorded. -/
theorem record_of_readable {completion : Completion} {job : Job} (readable : ledger.Readable)
    (found : ledger.job? completion.job = .ok (some job)) (now : Instant) :
    ∃ recording, (ledger.record completion now).2 = .ok recording := by
  rcases readable.resources completion.resource with ⟨resource, about⟩
  let execution := Execution.ofCompletion completion job (resource.elim true (·.active)) now
  have prepared : ledger.prepare completion now = .ok (execution, resource) :=
    prepare_eq_ok_iff.2 ⟨job, found, about, rfl⟩
  rcases readable.executions execution.resource execution.measurements.job execution.kind with
    ⟨known, read⟩
  rcases append_of_readable execution read with ⟨middle, fresh, appended⟩
  have whole := readable.appended (appended_append appended)
  rcases renewal?_of_readable whole execution now with ⟨next, renewal⟩
  rw [record, prepared]
  dsimp only
  rw [appended]
  dsimp only
  rw [renewal]
  cases next with
  | none => exact ⟨_, rfl⟩
  | some latest => exact ⟨_, rfl⟩

end MediaHarvest.Ledger
