import MediaHarvest.Hub.Basic

/-!
# Finding out that a job is finished

A report ends its task in the accounts.  Once every task of a job has ended and there are as many
of them as the job plans, the job is written down as finished, retired and announced.  A job that
was retired is not accounted any more, so whatever comes in for it later is ignored.
-/

namespace MediaHarvest

/-- Why a report is not taken into account. -/
inductive CompletionError where
  | accountHeld (job : String) (patience : Span)
  | ledger (error : LedgerError)
deriving DecidableEq, Repr

/-- The wording of a report that is not taken into account. -/
def CompletionError.message : CompletionError → String
  | .accountHeld job patience => s!"Accounting query for job {job} exceeded {patience.text}"
  | .ledger error => s!"Ledger error: {error.message}"

/-- What a report means for its job. -/
inductive CompletionStatus where
  | pending
  | finished
  | ignored
deriving DecidableEq, Repr

namespace CompletionStatus

def name : CompletionStatus → String
  | pending => "Pending"
  | finished => "Finished"
  | ignored => "Ignored"

end CompletionStatus

namespace Hub

/-- The account of a job, once nobody else holds it. -/
def awaitAccount (hub : Hub) (job : String) :
    Hub × Except CompletionError (Option JobAccount) :=
  if hub.accountant.isHeld job then
    (hub.count Metrics.collaboratorTimeout, .error (.accountHeld job hub.patience))
  else (hub, .ok (hub.accountant.account? job))

/-- How many tasks of a job have to be accounted before it can be finished. -/
def plannedCount (hub : Hub) (job : String) (account : JobAccount) : Except LedgerError Nat := do
  match ← hub.ledger.job? job with
  | some job => return job.tasks.length
  | none => return account.tasks.size

/-- Writes a job down as finished, retires and announces it. -/
def finish (hub : Hub) (job : String) (now : Instant) : Except LedgerError Hub := do
  let (ledger, _) ← hub.ledger.setJobState job .finished now
  return { hub with
    ledger := ledger
    accountant := hub.accountant.retire job job
    metrics := hub.metrics.jobFinished
    announced := hub.announced ++ [job] }

/-- Finishes a job if nothing of it is outstanding. -/
def finishIfComplete (hub : Hub) (job : String) (now : Instant) :
    Hub × Except CompletionError CompletionStatus :=
  match hub.accountant.account? job with
  | none => (hub, .ok .ignored)
  | some account =>
      if !account.allTerminal then (hub, .ok .pending)
      else
        match hub.plannedCount job account with
        | .error error => (hub, .error (.ledger error))
        | .ok planned =>
            if account.tasks.size < planned then (hub, .ok .pending)
            else
              match hub.finish job now with
              | .error error => (hub, .error (.ledger error))
              | .ok hub => (hub, .ok .finished)

/-- Notes the end of a task in the accounts. -/
def applyState (hub : Hub) (job task : String) (state : TaskState) : Hub × Recorded :=
  let (accountant, recorded) := hub.accountant.apply job task state
  ({ hub with accountant := accountant }, recorded)

/-- Takes a report into account. -/
def onCompletion (hub : Hub) (completion : Completion) (now : Instant) :
    Hub × Except CompletionError CompletionStatus :=
  match hub.awaitAccount completion.job with
  | (hub, .error error) => (hub, .error error)
  | (hub, .ok none) => (hub.count Metrics.eventIgnored, .ok .ignored)
  | (hub, .ok (some _)) =>
      match hub.applyState completion.job completion.task completion.taskState with
      | (hub, .updated) => hub.finishIfComplete completion.job now
      | (hub, _) => (hub.count Metrics.eventIgnored).finishIfComplete completion.job now

/-- Ends the given tasks of a job as their recorded executions ended. -/
def recover (job : String) : List TaskRecord → Hub → Hub × Except LedgerError Unit
  | [], hub => (hub, .ok ())
  | record :: rest, hub =>
      match hub.ledger.execution? record.task.resource job record.task.kind with
      | .error error => (hub, .error error)
      | .ok none => recover job rest hub
      | .ok (some execution) =>
          recover job rest (hub.applyState job record.task.id execution.measurements.taskState).1

/-- Looks again at a job whose reports may have been lost: what was recorded stands in for them. -/
def reconcile (hub : Hub) (job : String) (now : Instant) :
    Hub × Except CompletionError CompletionStatus :=
  match hub.awaitAccount job with
  | (hub, .error error) => (hub, .error error)
  | (hub, .ok none) => (hub, .ok .ignored)
  | (hub, .ok (some account)) =>
      match recover job account.outstanding hub with
      | (hub, .error error) => (hub, .error (.ledger error))
      | (hub, .ok ()) => hub.finishIfComplete job now

end Hub

end MediaHarvest
