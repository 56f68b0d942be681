import MediaHarvest.Ledger.Keys

/-!
# The ledger

The ledger keeps jobs, resources, executions and latest records, each under a key of its own, as
JSON.  Reading decodes what is stored, which fails if something else was put there.
-/

namespace MediaHarvest

open MediaHarvest.Json

/-- What is stored. -/
structure Ledger where
  jobs : Partition
  resources : Partition
  executions : Partition
  latest : Partition
  notes : Partition
deriving DecidableEq

/-- Why the ledger refuses. -/
inductive LedgerError where
  | unreadable (refusal : Refusal)
  | jobNotFound (id : String)
deriving DecidableEq, Repr

/-- The wording of a refusal of the ledger. -/
def LedgerError.message : LedgerError → String
  | .unreadable (.data error) => s!"Serialization error: {error.message}"
  | .unreadable .malformed => "Serialization error: malformed text"
  | .unreadable .cutOff => "Serialization error: unexpected end of text"
  | .jobNotFound id => s!"Job not found: {id}"

namespace Ledger

/-- The ledger without entries. -/
def empty : Ledger := ⟨∅, ∅, ∅, ∅, ∅⟩

instance : Inhabited Ledger := ⟨empty⟩

/-- Decodes what is stored. -/
def readValue {α : Type} (codec : Codec α) (bytes : Bytes) : Except LedgerError α :=
  (codec.readText bytes).mapError .unreadable

/-- Decodes what is stored under a key, if anything is. -/
def fetch {α : Type} (codec : Codec α) (partition : Partition) (key : Bytes) :
    Except LedgerError (Option α) :=
  match partition.get? key with
  | none => .ok none
  | some bytes => some <$> readValue codec bytes

/-- Decodes values in order. -/
def readAll {α : Type} (codec : Codec α) : List Bytes → Except LedgerError (List α)
  | [] => .ok []
  | bytes :: rest => do
      let value ← readValue codec bytes
      let values ← readAll codec rest
      return value :: values

/-! ## Jobs -/

/-- Writes a job under its name. -/
def putJob (ledger : Ledger) (job : Job) : Ledger :=
  { ledger with jobs := ledger.jobs.insert (jobKey job.id) (Job.codec.writeText job) }

/-- The job with a name. -/
def job? (ledger : Ledger) (id : String) : Except LedgerError (Option Job) :=
  fetch Job.codec ledger.jobs (jobKey id)

/-- The job with a name, which has to be there. -/
def job (ledger : Ledger) (id : String) : Except LedgerError Job := do
  match ← ledger.job? id with
  | some job => return job
  | none => throw (.jobNotFound id)

/-- Writes a new state of a job. -/
def setJobState (ledger : Ledger) (id : String) (state : JobState) (now : Instant) :
    Except LedgerError (Ledger × Job) := do
  let job := (← ledger.job id).withState state now
  return (ledger.putJob job, job)

/-- Writes a new state of a job if its present one is among `sources`.  The job is given as it is
stored afterwards. -/
def moveJob (ledger : Ledger) (id : String) (sources : List JobState) (target : JobState)
    (now : Instant) : Except LedgerError (Ledger × Job) := do
  let job ← ledger.job id
  if job.state = target ∨ job.state ∉ sources then return (ledger, job)
  else
    let job := job.withState target now
    return (ledger.putJob job, job)

/-- All jobs in the order of their keys. -/
def jobList (ledger : Ledger) : Except LedgerError (List Job) :=
  readAll Job.codec (Partition.under ledger.jobs jobFront)

/-! ## Resources -/

/-- Writes a resource under its name. -/
def putResource (ledger : Ledger) (resource : Resource) : Ledger :=
  { ledger with
    resources :=
      ledger.resources.insert (resourceKey resource.id) (Resource.codec.writeText resource) }

/-- The resource with a name. -/
def resource? (ledger : Ledger) (id : String) : Except LedgerError (Option Resource) :=
  fetch Resource.codec ledger.resources (resourceKey id)

/-! ## Executions -/

/-- Writes an execution. -/
def putExecution (ledger : Ledger) (execution : Execution) : Ledger :=
  let key := executionKey execution.resource execution.measurements.job execution.kind
  { ledger with
    executions := ledger.executions.insert key (Execution.codec.writeText execution) }

/-- The execution of a task kind on a resource for a job. -/
def execution? (ledger : Ledger) (resource job : String) (kind : TaskKind) :
    Except LedgerError (Option Execution) :=
  fetch Execution.codec ledger.executions (executionKey resource job kind)

/-- All executions on a resource, in the order of their keys. -/
def executionsOf (ledger : Ledger) (resource : String) : Except LedgerError (List Execution) :=
  readAll Execution.codec (Partition.under ledger.executions (executionFront resource))

/-- Writes a latest record under its key. -/
def putLatest (ledger : Ledger) (record : Latest) : Ledger :=
  { ledger with
    latest := ledger.latest.insert (latestKey record.key) (Latest.codec.writeText record) }

/-- The latest record for a key. -/
def latest? (ledger : Ledger) (key : LatestKey) : Except LedgerError (Option Latest) :=
  fetch Latest.codec ledger.latest (latestKey key)

end Ledger

end MediaHarvest
