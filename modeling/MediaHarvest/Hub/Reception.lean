import MediaHarvest.Hub.Completion
import MediaHarvest.Ledger.Recording

/-!
# Taking in reports

Every message that is a report is recorded in the ledger and taken into account; neither of the two
depends on the other.  A message that is no report is counted and dropped.
-/

namespace MediaHarvest.Hub

/-- Records the execution that a report tells of. -/
def record (hub : Hub) (completion : Completion) (now : Instant) :
    Hub × Except RecordingError Recording :=
  match hub.ledger.record completion now with
  | (ledger, .ok recording) =>
      ({ hub with ledger := ledger }.count Metrics.executionRecorded, .ok recording)
  | (ledger, .error error) => ({ hub with ledger := ledger }, .error error)

/-- Takes in a report. -/
def takeReport (hub : Hub) (completion : Completion) (now : Instant) : Hub :=
  let counted := hub.count Metrics.eventReceived
  let recorded := (counted.record completion now).1
  (recorded.onCompletion completion now).1

/-- Takes in a message. -/
def takeMessage (hub : Hub) (message : Bytes) (now : Instant) : Hub :=
  match Wire.decodeCompletion message with
  | .error _ => hub.count Metrics.eventUndecodable
  | .ok completion => hub.takeReport completion now

/-- Takes in messages in order. -/
def takeMessages (hub : Hub) (messages : List Bytes) (now : Instant) : Hub :=
  messages.foldl (fun hub message => hub.takeMessage message now) hub

end MediaHarvest.Hub
