import MediaHarvest.Json.Value
import MediaHarvest.Retrieval.State

/-!
# Counters

What the harvester counts while it runs.  The counters are words of 64 bits and start again at zero
when they are full.
-/

namespace MediaHarvest

/-- The counters. -/
structure Metrics where
  /-- Tasks that were handed to a node. -/
  tasksDispatched : UInt64
  networkAttempts : UInt64
  retrievalsCompleted : UInt64
  retrievalsFailed : UInt64
  retrievalsAborted : UInt64
  /-- The time of all retrievals, in milliseconds. -/
  retrievalMillis : UInt64
  eventsReceived : UInt64
  eventsIgnored : UInt64
  eventsUndecodable : UInt64
  /-- Waits for another part that took too long. -/
  collaboratorTimeouts : UInt64
  jobsFinished : UInt64
  statisticsRecorded : UInt64
deriving DecidableEq, Repr

namespace Metrics

/-- All counters at zero. -/
def zero : Metrics := ⟨0, 0, 0, 0, 0, 0, 0, 0, 0, 0, 0, 0⟩

instance : Inhabited Metrics := ⟨zero⟩

/-- Counts a task that was handed to a node. -/
def taskDispatched (m : Metrics) : Metrics := { m with tasksDispatched := m.tasksDispatched + 1 }

/-- Counts a request. -/
def networkAttempt (m : Metrics) : Metrics := { m with networkAttempts := m.networkAttempts + 1 }

/-- Counts a report. -/
def eventReceived (m : Metrics) : Metrics := { m with eventsReceived := m.eventsReceived + 1 }

/-- Counts a report that changed nothing. -/
def eventIgnored (m : Metrics) : Metrics := { m with eventsIgnored := m.eventsIgnored + 1 }

/-- Counts a message that is no report. -/
def eventUndecodable (m : Metrics) : Metrics :=
  { m with eventsUndecodable := m.eventsUndecodable + 1 }

/-- Counts a wait that took too long. -/
def collaboratorTimeout (m : Metrics) : Metrics :=
  { m with collaboratorTimeouts := m.collaboratorTimeouts + 1 }

/-- Counts a finished job. -/
def jobFinished (m : Metrics) : Metrics := { m with jobsFinished := m.jobsFinished + 1 }

/-- Counts a recorded execution. -/
def executionRecorded (m : Metrics) : Metrics :=
  { m with statisticsRecorded := m.statisticsRecorded + 1 }

/-- Counts the end of a retrieval under its state, and adds its time. -/
def retrievalFinished (m : Metrics) (state : RetrievalState) (elapsed : Span) : Metrics :=
  let counted := match state with
    | .completed => { m with retrievalsCompleted := m.retrievalsCompleted + 1 }
    | .abortedTimeLimit | .abortedSizeLimit =>
        { m with retrievalsAborted := m.retrievalsAborted + 1 }
    | _ => { m with retrievalsFailed := m.retrievalsFailed + 1 }
  { counted with retrievalMillis := counted.retrievalMillis + elapsed.wholeMillis }

/-- The counters in JSON. -/
def encode (m : Metrics) : Json.Value :=
  .record
    [("tasks_dispatched", .natural m.tasksDispatched.toNat),
      ("network_attempts", .natural m.networkAttempts.toNat),
      ("retrievals_completed", .natural m.retrievalsCompleted.toNat),
      ("retrievals_failed", .natural m.retrievalsFailed.toNat),
      ("retrievals_aborted", .natural m.retrievalsAborted.toNat),
      ("retrieval_millis", .natural m.retrievalMillis.toNat),
      ("events_received", .natural m.eventsReceived.toNat),
      ("events_ignored", .natural m.eventsIgnored.toNat),
      ("events_undecodable", .natural m.eventsUndecodable.toNat),
      ("collaborator_timeouts", .natural m.collaboratorTimeouts.toNat),
      ("jobs_finished", .natural m.jobsFinished.toNat),
      ("statistics_recorded", .natural m.statisticsRecorded.toNat)]

end Metrics

end MediaHarvest
