import MediaHarvest.Job.Basic

/-!
# Statistics of executions

Every completed execution leaves an `Execution` that is never changed, and renews the `Latest`
record of its resource, kind and role, which keeps the time of its own creation.
-/

namespace MediaHarvest

open MediaHarvest.Json

/-- What the latest record is kept for. -/
structure LatestKey where
  resource : String
  kind : TaskKind
  role : SourceRole
deriving DecidableEq, Repr

/-- The name of a latest record. -/
def LatestKey.text (key : LatestKey) : String :=
  s!"{key.resource}:{key.kind.name}:{key.role.name}"

/-- What was measured. -/
structure Measurements where
  job : String
  /-- The result as a whole. -/
  verdict : Verdict
  retrievalState : RetrievalState
  taskState : TaskState
  httpStatus : Option UInt16
  contentType : Option String
  contentSize : UInt64
  /-- The time of connecting, in milliseconds. -/
  connectMillis : UInt64
  /-- The time of checking, in milliseconds. -/
  checkingMillis : UInt64
  /-- The time of taking the content, in milliseconds. -/
  retrievalMillis : UInt64
  /-- The address that the content came from. -/
  sourceAddress : Option Address
  headers : Headers
  log : String
  subTasks : SubTaskStates
  completedAt : Instant
deriving DecidableEq

namespace Measurements

/-- What a report measures. -/
def ofCompletion (completion : Completion) : Measurements :=
  let outcome := completion.outcome
  { job := completion.job
    verdict := completion.verdict
    retrievalState := outcome.state
    taskState := completion.taskState
    httpStatus := outcome.httpStatus
    contentType := outcome.contentType
    contentSize := outcome.bytesTransferred
    connectMillis := outcome.times.connect.wholeMillis
    checkingMillis := outcome.times.checking.wholeMillis
    retrievalMillis := outcome.times.retrieval.wholeMillis
    sourceAddress := outcome.sourceAddress
    headers := outcome.headers
    log := outcome.log
    subTasks := completion.subTasks
    completedAt := completion.completedAt }

def shape : Shape Measurements Measurements :=
  mk <$> .required "job_id" .text job
    <*> .required "processing_state" Verdict.codec verdict
    <*> .required "retrieving_state" RetrievalState.codec retrievalState
    <*> .required "task_state" TaskState.codec taskState
    <*> .optional "http_status" .word16 httpStatus
    <*> .optional "content_type" .text contentType
    <*> .required "content_size" .word64 contentSize
    <*> .required "connect_ms" .word64 connectMillis
    <*> .required "checking_ms" .word64 checkingMillis
    <*> .required "retrieval_ms" .word64 retrievalMillis
    <*> .optional "source_ip" Address.codec sourceAddress
    <*> .required "headers" (.map .text) headers
    <*> .required "log" .text log
    <*> .required "sub_task_stats" SubTaskStates.codec subTasks
    <*> .required "completed_at" Instant.codec completedAt

end Measurements

/-- A completed execution. -/
structure Execution where
  id : String
  createdAt : Instant
  active : Bool
  kind : TaskKind
  owner : Owner
  role : SourceRole
  resource : String
  measurements : Measurements
deriving DecidableEq

namespace Execution

/-- The name of an execution: that of its resource, its job and its kind. -/
def idOf (resource job : String) (kind : TaskKind) : String :=
  s!"{resource}-{job}-{kind.name}"

/-- The execution that a report tells of. -/
def ofCompletion (completion : Completion) (job : Job) (active : Bool) (now : Instant) :
    Execution where
  id := idOf completion.resource completion.job completion.kind
  createdAt := now
  active := active
  kind := completion.kind
  owner := job.owner
  role := job.role
  resource := completion.resource
  measurements := .ofCompletion completion

/-- The latest record that the execution belongs to. -/
def key (execution : Execution) : LatestKey :=
  ⟨execution.resource, execution.kind, execution.role⟩

/-- The fields of an execution, apart from the measurements. -/
def ownShape : Shape Execution (Measurements → Execution) :=
  mk <$> .required "id" .text id
    <*> .required "created_at" Instant.codec createdAt
    <*> .required "active" .bool active
    <*> .required "task_type" TaskKind.codec kind
    <*> .required "owner" Owner.codec owner
    <*> .required "url_source_type" SourceRole.codec role
    <*> .required "resource_id" .text resource

/-- Executions in JSON; the measurements stand beside the other fields. -/
def codec : Codec Execution :=
  Shape.joined "StatisticsRecord" ownShape (Measurements.shape.via measurements)

end Execution

/-- The latest execution known for a key. -/
structure Latest where
  id : String
  createdAt : Instant
  /-- When it was last renewed. -/
  updatedAt : Instant
  active : Bool
  kind : TaskKind
  owner : Owner
  role : SourceRole
  resource : String
  execution : String
  measurements : Measurements
deriving DecidableEq

namespace Latest

/-- The first record for the key of an execution. -/
def ofExecution (execution : Execution) (now : Instant) : Latest where
  id := execution.key.text
  createdAt := now
  updatedAt := now
  active := execution.active
  kind := execution.kind
  owner := execution.owner
  role := execution.role
  resource := execution.resource
  execution := execution.id
  measurements := execution.measurements

/-- The record renewed by an execution; the time of its creation stays. -/
def renew (latest : Latest) (execution : Execution) (now : Instant) : Latest :=
  { latest with
    updatedAt := now
    active := execution.active
    owner := execution.owner
    execution := execution.id
    measurements := execution.measurements }

/-- Whether an execution ended no earlier than the one on record. -/
def isSupersededBy (latest : Latest) (execution : Execution) : Bool :=
  latest.measurements.completedAt ≤ execution.measurements.completedAt

/-- The key of the record. -/
def key (latest : Latest) : LatestKey := ⟨latest.resource, latest.kind, latest.role⟩

/-- The fields of a latest record, apart from the measurements. -/
def ownShape : Shape Latest (Measurements → Latest) :=
  mk <$> .required "id" .text id
    <*> .required "created_at" Instant.codec createdAt
    <*> .required "updated_at" Instant.codec updatedAt
    <*> .required "active" .bool active
    <*> .required "task_type" TaskKind.codec kind
    <*> .required "owner" Owner.codec owner
    <*> .required "url_source_type" SourceRole.codec role
    <*> .required "resource_id" .text resource
    <*> .required "statistics_id" .text execution

/-- Latest records in JSON; the measurements stand beside the other fields. -/
def codec : Codec Latest :=
  Shape.joined "LastStatisticsRecord" ownShape (Measurements.shape.via measurements)

end Latest

end MediaHarvest
