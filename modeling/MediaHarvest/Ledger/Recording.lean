import MediaHarvest.Ledger.Basic

/-!
# Recording executions

Every report of a known job leaves one execution, whichever of several reports of it comes first,
and renews the latest record of its key if it is not older.  The resource then points to the
execution that renewed the record.
-/

namespace MediaHarvest

/-- Why an execution is not recorded. -/
inductive RecordingError where
  | ledger (error : LedgerError)
  | unknownJob (job : String)
deriving DecidableEq, Repr

/-- The wording of a refused recording. -/
def RecordingError.message : RecordingError → String
  | .ledger error => s!"Ledger error: {error.message}"
  | .unknownJob job => s!"Job not found: {job}"

/-- What a recording changed. -/
structure Recording where
  execution : String
  appended : Bool
  renewed : Bool
deriving DecidableEq, Repr

namespace Ledger

/-- The execution that a report tells of, with the resource that it is about. -/
def prepare (ledger : Ledger) (completion : Completion) (now : Instant) :
    Except RecordingError (Execution × Option Resource) := do
  match ← (ledger.job? completion.job).mapError .ledger with
  | none => throw (.unknownJob completion.job)
  | some job =>
      let resource ← (ledger.resource? completion.resource).mapError .ledger
      let active := match resource with
        | some resource => resource.active
        | none => true
      return (.ofCompletion completion job active now, resource)

/-- Writes an execution unless there is one already; tells whether it was written. -/
def append (ledger : Ledger) (execution : Execution) : Except LedgerError (Ledger × Bool) := do
  match ← ledger.execution? execution.resource execution.measurements.job execution.kind with
  | some _ => return (ledger, false)
  | none => return (ledger.putExecution execution, true)

/-- The latest record after an execution; none if the one on record is newer. -/
def renewal? (ledger : Ledger) (execution : Execution) (now : Instant) :
    Except LedgerError (Option Latest) := do
  match ← ledger.latest? execution.key with
  | none => return some (.ofExecution execution now)
  | some latest =>
      if latest.isSupersededBy execution then return some (latest.renew execution now)
      else return none

/-- Writes a latest record, and points its resource to the execution. -/
def renew (ledger : Ledger) (latest : Latest) (resource : Option Resource)
    (redirectionPath : List String) : Ledger :=
  let ledger := ledger.putLatest latest
  match resource with
  | none => ledger
  | some resource =>
      ledger.putResource (resource.withLastExecution latest.execution redirectionPath)

/-- Records the execution that a report tells of.  What was written before a failure stays. -/
def record (ledger : Ledger) (completion : Completion) (now : Instant) :
    Ledger × Except RecordingError Recording :=
  match ledger.prepare completion now with
  | .error error => (ledger, .error error)
  | .ok (execution, resource) =>
      match ledger.append execution with
      | .error error => (ledger, .error (.ledger error))
      | .ok (ledger, appended) =>
          match ledger.renewal? execution now with
          | .error error => (ledger, .error (.ledger error))
          | .ok none => (ledger, .ok ⟨execution.id, appended, false⟩)
          | .ok (some latest) =>
              (ledger.renew latest resource completion.outcome.redirectionPath,
                .ok ⟨execution.id, appended, true⟩)

end Ledger

end MediaHarvest
