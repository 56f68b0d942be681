import MediaHarvest.Job.Kinds
import MediaHarvest.Retrieval.Limits
import MediaHarvest.Retrieval.Outcome

/-!
# Jobs, resources and tasks

A job plans tasks on resources.  A task that is handed out carries everything that the node needs:
the link of its resource, the limits of its job, and the header fields that the previous execution
saw.
-/

namespace MediaHarvest

open MediaHarvest.Json

/-- Whom a record belongs to. -/
structure Owner where
  provider : String
  collection : String
  record : String
  execution : String
deriving DecidableEq, Repr, Inhabited

def Owner.shape : Shape Owner Owner :=
  mk <$> .required "provider_id" .text provider
    <*> .required "collection_id" .text collection
    <*> .required "record_id" .text record
    <*> .required "execution_id" .text execution

def Owner.codec : Codec Owner := shape.codec "ReferenceOwner"

/-- A task as a job plans it. -/
structure PlannedTask where
  kind : TaskKind
  resource : String
  subTasks : List SubTask
deriving DecidableEq, Repr

def PlannedTask.shape : Shape PlannedTask PlannedTask :=
  mk <$> .required "task_type" TaskKind.codec kind
    <*> .required "resource_id" .text resource
    <*> .defaulted "sub_tasks" (.list SubTask.codec) subTasks []

def PlannedTask.codec : Codec PlannedTask := shape.codec "JobTask"

/-- A list of tasks with a common owner. -/
structure Job where
  id : String
  owner : Owner
  tasks : List PlannedTask
  state : JobState
  role : SourceRole
  limits : Limits
  createdAt : Instant
  /-- When its state last changed. -/
  updatedAt : Instant
deriving DecidableEq, Repr

namespace Job

/-- The job in another state, from now on. -/
def withState (job : Job) (state : JobState) (now : Instant) : Job :=
  { job with state := state, updatedAt := now }

/-- The name of the task at a position. -/
def taskId (job : Job) (index : Nat) : String := s!"{job.id}:{index}"

def shape : Shape Job Job :=
  mk <$> .required "id" .text id
    <*> .required "owner" Owner.codec owner
    <*> .required "tasks" (.list PlannedTask.codec) tasks
    <*> .required "state" JobState.codec state
    <*> .required "url_source_type" SourceRole.codec role
    <*> .defaulted "limits" Limits.codec limits .unlimited
    <*> .required "created_at" Instant.codec createdAt
    <*> .required "updated_at" Instant.codec updatedAt

def codec : Codec Job := shape.codec "Job"

end Job

/-- A remote source that jobs harvest. -/
structure Resource where
  id : String
  /-- Its link, if it is known. -/
  url : Option String
  owner : Owner
  active : Bool
  /-- The execution that last looked at it. -/
  lastExecution : Option String
  redirectionPath : List String
deriving DecidableEq, Repr

namespace Resource

/-- The resource as an execution left it. -/
def withLastExecution (resource : Resource) (execution : String) (path : List String) : Resource :=
  { resource with lastExecution := some execution, redirectionPath := path }

def shape : Shape Resource Resource :=
  mk <$> .required "id" .text id
    <*> .optional "url" .text url
    <*> .required "owner" Owner.codec owner
    <*> .defaulted "active" .bool active true
    <*> .defaulted "last_stats_id" (.option .text) lastExecution none
    <*> .defaulted "redirection_path" (.list .text) redirectionPath []

def codec : Codec Resource := shape.codec "Resource"

end Resource

/-- A task as a node carries it out. -/
structure Task where
  id : String
  job : String
  resource : String
  url : Option String
  kind : TaskKind
  limits : Limits
  /-- The header fields that the previous execution saw. -/
  previousHeaders : Headers
  subTasks : List SubTask
  owner : Owner
deriving DecidableEq

namespace Task

/-- The content length that the previous execution saw: that of the first field of this name, in
either case, if it is a number. -/
def previousLength (task : Task) : Option UInt64 := do
  let (_, value) ← task.previousHeaders.entries.find? fun entry =>
    Text.lower entry.1 = "content-length"
  Number.word? (Text.trim value).toList

def shape : Shape Task Task :=
  mk <$> .required "id" .text id
    <*> .required "job_id" .text job
    <*> .required "resource_id" .text resource
    <*> .optional "url" .text url
    <*> .required "task_type" TaskKind.codec kind
    <*> .required "limits" Limits.codec limits
    <*> .defaulted "previous_headers" (.map .text) previousHeaders ∅
    <*> .defaulted "sub_tasks" (.list SubTask.codec) subTasks []
    <*> .required "owner" Owner.codec owner

def codec : Codec Task := shape.codec "RetrieveTask"

end Task

/-- What a node reports when it has carried out a task.  It may arrive more than once. -/
structure Completion where
  job : String
  task : String
  resource : String
  kind : TaskKind
  /-- The result as a whole. -/
  verdict : Verdict
  subTasks : SubTaskStates
  outcome : Outcome
  node : String
  completedAt : Instant
deriving DecidableEq

namespace Completion

/-- The state in which the task is left. -/
def taskState (completion : Completion) : TaskState := completion.verdict.taskState

def shape : Shape Completion Completion :=
  mk <$> .required "job_id" .text job
    <*> .required "task_id" .text task
    <*> .required "resource_id" .text resource
    <*> .required "task_type" TaskKind.codec kind
    <*> .required "processing_state" Verdict.codec verdict
    <*> .required "sub_task_stats" SubTaskStates.codec subTasks
    <*> .required "outcome" Outcome.codec outcome
    <*> .required "node_id" .text node
    <*> .required "completed_at" Instant.codec completedAt

def codec : Codec Completion := shape.codec "TaskCompletionEvent"

end Completion

end MediaHarvest
