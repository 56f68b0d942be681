import MediaHarvest.Job.Basic
import MediaHarvest.Wire.Message

/-!
# Tasks and reports on the wire

The messages that carry tasks to the nodes, reports back, and tasks that could not be delivered.
Alternatives are sent as numbers; a message may hold numbers that stand for nothing, and turning it
into a record then fails with the first of them.
-/

namespace MediaHarvest.Wire

/-- Why bytes are not a record. -/
inductive DecodeError where
  | wire (fault : Fault)
  | unknownVariant (field : String) (value : Int32)
  | missingField (field : String)
  | invalidAddress (text : String)
  | invalidTimestamp (millis : Int64)
deriving DecidableEq, Repr

/-- The wording of a refused record. -/
def DecodeError.message : DecodeError → String
  | .wire fault => "Protobuf decode failed: " ++ fault.text
  | .unknownVariant field value => s!"Unknown {field} value {value}"
  | .missingField field => s!"Missing field: {field}"
  | .invalidAddress text => s!"Invalid source IP: {text}"
  | .invalidTimestamp millis => s!"Invalid timestamp: {millis}"

/-! ## Numbers of alternatives -/

/-- The alternatives of a type with the number that each is sent as. -/
structure Numbering (α : Type) where
  all : List α
  code : α → Int32
  /-- The name of the field in messages. -/
  field : String

/-- The alternative with a number. -/
def Numbering.ofCode {α : Type} (numbering : Numbering α) (code : Int32) :
    Except DecodeError α :=
  match numbering.all.find? fun value => numbering.code value = code with
  | some value => .ok value
  | none => .error (.unknownVariant numbering.field code)

/-- The numbers of the kinds of tasks. -/
def taskKinds : Numbering TaskKind where
  all := TaskKind.all
  field := "task_type"
  code
    | .unconditionalDownload => 1
    | .conditionalDownload => 2
    | .checkLink => 3

/-- The numbers of the states of a retrieval. -/
def retrievalStates : Numbering RetrievalState where
  all := RetrievalState.all
  field := "retrieving_state"
  code
    | .pending => 1
    | .checkingExistence => 2
    | .skippedCompleted => 3
    | .downloading => 4
    | .completed => 5
    | .error => 6
    | .abortedTimeLimit => 7
    | .abortedSizeLimit => 8

/-- The numbers of the states of a sub-task. -/
def subTaskStates : Numbering SubTaskState where
  all := SubTaskState.all
  field := "sub_task_state"
  code
    | .neverExecuted => 0
    | .success => 1
    | .error => 2
    | .skipped => 3

/-- The numbers of the sub-tasks. -/
def subTasks : Numbering SubTask where
  all := SubTask.all
  field := "sub_task"
  code
    | .colorExtraction => 1
    | .metaExtraction => 2
    | .thumbnailGeneration => 3
    | .thumbnailStorage => 4

/-- The numbers of the results. -/
def verdicts : Numbering Verdict where
  all := Verdict.all
  field := "processing_state"
  code
    | .success => 1
    | .error => 2

/-! ## Messages -/

/-- Limits as a message. -/
def limits : Message Limits where
  name := "Limits"
  empty := .unlimited
  fields :=
    [.word64 1 "connection_timeout_ms" (·.connectionTimeout.wholeMillis)
        (fun m v => { m with connectionTimeout := .ofMillis v }),
      .word64 2 "min_throughput_bytes_per_sec" (·.throughputFloor)
        (fun m v => { m with throughputFloor := v }),
      .word64 3 "max_retrieval_time_ms" (·.retrievalTime.wholeMillis)
        (fun m v => { m with retrievalTime := .ofMillis v }),
      .word32 4 "max_redirects" (·.redirects) (fun m v => { m with redirects := v }),
      .word64 5 "max_processing_time_ms" (·.processingTime.wholeMillis)
        (fun m v => { m with processingTime := .ofMillis v }),
      .word64 6 "max_content_size" (·.contentSize) (fun m v => { m with contentSize := v })]

/-- An owner as a message. -/
def owner : Message Owner where
  name := "Owner"
  empty := ⟨"", "", "", ""⟩
  fields :=
    [.text 1 "provider_id" (·.provider) (fun m v => { m with provider := v }),
      .text 2 "collection_id" (·.collection) (fun m v => { m with collection := v }),
      .text 3 "record_id" (·.record) (fun m v => { m with record := v }),
      .text 4 "execution_id" (·.execution) (fun m v => { m with execution := v })]

/-- The states of the sub-tasks as numbers. -/
structure SubTaskCodes where
  retrieve : Int32
  colorExtraction : Int32
  metaExtraction : Int32
  thumbnailGeneration : Int32
  thumbnailStorage : Int32
deriving DecidableEq, Repr

/-- The states of the sub-tasks as a message. -/
def subTaskCodes : Message SubTaskCodes where
  name := "SubTaskStatsMessage"
  empty := ⟨0, 0, 0, 0, 0⟩
  fields :=
    [.code 1 "retrieve" (·.retrieve) (fun m v => { m with retrieve := v }),
      .code 2 "color_extraction" (·.colorExtraction) (fun m v => { m with colorExtraction := v }),
      .code 3 "meta_extraction" (·.metaExtraction) (fun m v => { m with metaExtraction := v }),
      .code 4 "thumbnail_generation" (·.thumbnailGeneration)
        (fun m v => { m with thumbnailGeneration := v }),
      .code 5 "thumbnail_storage" (·.thumbnailStorage)
        (fun m v => { m with thumbnailStorage := v })]

/-- A task as it is sent. -/
structure TaskMessage where
  id : String
  job : String
  resource : String
  url : Option String
  kind : Int32
  limits : Option Limits
  /-- The header fields that the previous execution saw. -/
  previousHeaders : Headers
  subTasks : List Int32
  owner : Option Owner
deriving DecidableEq

/-- Tasks as messages. -/
def taskMessage : Message TaskMessage where
  name := "RetrieveUrl"
  empty := ⟨"", "", "", none, 0, none, ∅, [], none⟩
  fields :=
    [.text 1 "id" (·.id) (fun m v => { m with id := v }),
      .text 2 "job_id" (·.job) (fun m v => { m with job := v }),
      .text 3 "resource_id" (·.resource) (fun m v => { m with resource := v }),
      .optionalText 4 "url" (·.url) (fun m v => { m with url := some v }),
      .code 5 "task_type" (·.kind) (fun m v => { m with kind := v }),
      .message 6 "limits" Wire.limits (·.limits) (fun m v => { m with limits := some v }),
      .map 7 "previous_headers" (·.previousHeaders) (fun m v => { m with previousHeaders := v }),
      .codes 8 "sub_tasks" (·.subTasks) (fun m v => { m with subTasks := v }),
      .message 9 "owner" Wire.owner (·.owner) (fun m v => { m with owner := some v })]

/-- A report as it is sent. -/
structure CompletionMessage where
  job : String
  task : String
  resource : String
  kind : Int32
  verdict : Int32
  /-- The numbers of the states of the sub-tasks. -/
  subTasks : Option SubTaskCodes
  /-- The number of the state of the retrieval. -/
  state : Int32
  /-- The numbers of the states that were visited. -/
  history : List Int32
  bytesTransferred : UInt64
  httpStatus : Option UInt32
  contentType : Option String
  headers : Headers
  /-- The address that the content came from. -/
  sourceAddress : Option String
  /-- The time of connecting, in milliseconds. -/
  connectMillis : UInt64
  /-- The time of checking, in milliseconds. -/
  checkingMillis : UInt64
  /-- The time of taking the content, in milliseconds. -/
  retrievalMillis : UInt64
  redirectionPath : List String
  log : String
  /-- The file of the content; none if it was kept in memory. -/
  storagePath : Option String
  node : String
  /-- When the task ended, in milliseconds since the start of 1970. -/
  completedAtMillis : Int64
deriving DecidableEq

/-- Reports as messages. -/
def completionMessage : Message CompletionMessage where
  name := "DoneProcessing"
  empty := ⟨"", "", "", 0, 0, none, 0, [], 0, none, none, ∅, none, 0, 0, 0, [], "", none, "", 0⟩
  fields :=
    [.text 1 "job_id" (·.job) (fun m v => { m with job := v }),
      .text 2 "task_id" (·.task) (fun m v => { m with task := v }),
      .text 3 "resource_id" (·.resource) (fun m v => { m with resource := v }),
      .code 4 "task_type" (·.kind) (fun m v => { m with kind := v }),
      .code 5 "processing_state" (·.verdict) (fun m v => { m with verdict := v }),
      .message 6 "sub_task_stats" subTaskCodes (·.subTasks)
        (fun m v => { m with subTasks := some v }),
      .code 7 "retrieving_state" (·.state) (fun m v => { m with state := v }),
      .codes 8 "history" (·.history) (fun m v => { m with history := v }),
      .word64 9 "bytes_transferred" (·.bytesTransferred)
        (fun m v => { m with bytesTransferred := v }),
      .optionalWord32 10 "http_status" (·.httpStatus) (fun m v => { m with httpStatus := some v }),
      .optionalText 11 "content_type" (·.contentType)
        (fun m v => { m with contentType := some v }),
      .map 12 "headers" (·.headers) (fun m v => { m with headers := v }),
      .optionalText 13 "source_ip" (·.sourceAddress)
        (fun m v => { m with sourceAddress := some v }),
      .word64 14 "connect_ms" (·.connectMillis) (fun m v => { m with connectMillis := v }),
      .word64 15 "checking_ms" (·.checkingMillis) (fun m v => { m with checkingMillis := v }),
      .word64 16 "retrieval_ms" (·.retrievalMillis) (fun m v => { m with retrievalMillis := v }),
      .texts 17 "redirection_path" (·.redirectionPath)
        (fun m v => { m with redirectionPath := v }),
      .text 18 "log" (·.log) (fun m v => { m with log := v }),
      .optionalText 19 "storage_path" (·.storagePath)
        (fun m v => { m with storagePath := some v }),
      .text 20 "node_id" (·.node) (fun m v => { m with node := v }),
      .signed64 21 "completed_at_ms" (·.completedAtMillis)
        (fun m v => { m with completedAtMillis := v })]

/-- A task that could not be delivered, with the reason. -/
structure DeadLetter where
  task : Option TaskMessage
  reason : String
  /-- When it was given up, in milliseconds since the start of 1970. -/
  failedAtMillis : Int64
deriving DecidableEq

/-- Undelivered tasks as messages. -/
def deadLetter : Message DeadLetter where
  name := "DeadLetterTask"
  empty := ⟨none, "", 0⟩
  fields :=
    [.message 1 "task" taskMessage (·.task) (fun m v => { m with task := some v }),
      .text 2 "reason" (·.reason) (fun m v => { m with reason := v }),
      .signed64 3 "failed_at_ms" (·.failedAtMillis) (fun m v => { m with failedAtMillis := v })]

/-! ## Records -/

/-- The message of a task. -/
def TaskMessage.ofTask (task : Task) : TaskMessage where
  id := task.id
  job := task.job
  resource := task.resource
  url := task.url
  kind := taskKinds.code task.kind
  limits := some task.limits
  previousHeaders := task.previousHeaders
  subTasks := task.subTasks.map Wire.subTasks.code
  owner := some task.owner

/-- The task of a message. -/
def TaskMessage.toTask (message : TaskMessage) : Except DecodeError Task := do
  let subTasks ← message.subTasks.mapM Wire.subTasks.ofCode
  let kind ← taskKinds.ofCode message.kind
  return {
    id := message.id
    job := message.job
    resource := message.resource
    url := message.url
    kind := kind
    limits := message.limits.getD .unlimited
    previousHeaders := message.previousHeaders
    subTasks := subTasks
    owner := message.owner.getD Wire.owner.empty }

/-- The numbers of states. -/
def SubTaskCodes.ofStates (states : SubTaskStates) : SubTaskCodes where
  retrieve := subTaskStates.code states.retrieve
  colorExtraction := subTaskStates.code states.colorExtraction
  metaExtraction := subTaskStates.code states.metaExtraction
  thumbnailGeneration := subTaskStates.code states.thumbnailGeneration
  thumbnailStorage := subTaskStates.code states.thumbnailStorage

/-- The states of numbers. -/
def SubTaskCodes.toStates (codes : SubTaskCodes) : Except DecodeError SubTaskStates := do
  return {
    retrieve := ← subTaskStates.ofCode codes.retrieve
    colorExtraction := ← subTaskStates.ofCode codes.colorExtraction
    metaExtraction := ← subTaskStates.ofCode codes.metaExtraction
    thumbnailGeneration := ← subTaskStates.ofCode codes.thumbnailGeneration
    thumbnailStorage := ← subTaskStates.ofCode codes.thumbnailStorage }

/-- The message of a report. -/
def CompletionMessage.ofCompletion (completion : Completion) : CompletionMessage :=
  let outcome := completion.outcome
  { job := completion.job
    task := completion.task
    resource := completion.resource
    kind := taskKinds.code completion.kind
    verdict := verdicts.code completion.verdict
    subTasks := some (.ofStates completion.subTasks)
    state := retrievalStates.code outcome.state
    history := outcome.history.map retrievalStates.code
    bytesTransferred := outcome.bytesTransferred
    httpStatus := outcome.httpStatus.map UInt16.toUInt32
    contentType := outcome.contentType
    headers := outcome.headers
    sourceAddress := outcome.sourceAddress.map Address.text
    connectMillis := outcome.times.connect.wholeMillis
    checkingMillis := outcome.times.checking.wholeMillis
    retrievalMillis := outcome.times.retrieval.wholeMillis
    redirectionPath := outcome.redirectionPath
    log := outcome.log
    storagePath := match outcome.storage with
      | .disk path => some path
      | .memory => none
    node := completion.node
    completedAtMillis := Int64.ofInt completion.completedAt.toMillis }

/-- The address of a message. -/
def readAddress : Option String → Except DecodeError (Option Address)
  | none => .ok none
  | some text =>
      match Address.parse? text with
      | some address => .ok (some address)
      | none => .error (.invalidAddress text)

/-- The instant of a message. -/
def readTime (millis : Int64) : Except DecodeError Instant :=
  match Instant.ofMillis? millis.toInt with
  | some instant => .ok instant
  | none => .error (.invalidTimestamp millis)

/-- The states of the sub-tasks of a message. -/
def readStates : Option SubTaskCodes → Except DecodeError SubTaskStates
  | none => .error (.missingField "sub_task_stats")
  | some codes => codes.toStates

/-- The status of a message. -/
def readStatus : Option UInt32 → Except DecodeError (Option UInt16)
  | none => .ok none
  | some status =>
      if status < 65536 then .ok (some status.toUInt16)
      else .error (.unknownVariant "http_status" status.toInt32)

/-- The report of a message.  The first fault is reported: a state of the history, the address, the
time, the states of the sub-tasks, the status, the state, the kind, the result. -/
def CompletionMessage.toCompletion (message : CompletionMessage) :
    Except DecodeError Completion := do
  let history ← message.history.mapM retrievalStates.ofCode
  let sourceAddress ← readAddress message.sourceAddress
  let completedAt ← readTime message.completedAtMillis
  let subTasks ← readStates message.subTasks
  let httpStatus ← readStatus message.httpStatus
  let state ← retrievalStates.ofCode message.state
  let kind ← taskKinds.ofCode message.kind
  let verdict ← verdicts.ofCode message.verdict
  return {
    job := message.job
    task := message.task
    resource := message.resource
    kind := kind
    verdict := verdict
    subTasks := subTasks
    outcome := {
      state := state
      history := history
      bytesTransferred := message.bytesTransferred
      httpStatus := httpStatus
      contentType := message.contentType
      headers := message.headers
      sourceAddress := sourceAddress
      times := ⟨.ofMillis message.connectMillis, .ofMillis message.checkingMillis,
        .ofMillis message.retrievalMillis⟩
      redirectionPath := message.redirectionPath
      log := message.log
      storage := match message.storagePath with
        | some path => .disk path
        | none => .memory }
    node := message.node
    completedAt := completedAt }

/-- The bytes of a task. -/
def encodeTask (task : Task) : Bytes := taskMessage.write (.ofTask task)

/-- The task of bytes. -/
def decodeTask (bytes : Bytes) : Except DecodeError Task := do
  let message ← (taskMessage.read bytes).mapError .wire
  message.toTask

/-- The bytes of a report. -/
def encodeCompletion (completion : Completion) : Bytes :=
  completionMessage.write (.ofCompletion completion)

/-- The report of bytes. -/
def decodeCompletion (bytes : Bytes) : Except DecodeError Completion := do
  let message ← (completionMessage.read bytes).mapError .wire
  message.toCompletion

end MediaHarvest.Wire
