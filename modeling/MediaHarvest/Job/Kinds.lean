import MediaHarvest.Job.SubTask
import MediaHarvest.Retrieval.State

/-!
# Kinds and states of jobs and tasks

The fixed vocabularies of the records, each with its names in JSON.
-/

namespace MediaHarvest

open MediaHarvest.Json

/-- What a task does with its resource. -/
inductive TaskKind where
  | unconditionalDownload
  /-- Takes the content unless it is the one that is already known. -/
  | conditionalDownload
  | checkLink
deriving DecidableEq, Repr

namespace TaskKind

/-- The kinds, in the order in which they are numbered. -/
def all : List TaskKind := [unconditionalDownload, conditionalDownload, checkLink]

def name : TaskKind → String
  | unconditionalDownload => "UNCONDITIONAL_DOWNLOAD"
  | conditionalDownload => "CONDITIONAL_DOWNLOAD"
  | checkLink => "CHECK_LINK"

def codec : Codec TaskKind := .choice all name

end TaskKind

/-- The role that a link has in the record that owns it. -/
inductive SourceRole where
  | object
  | hasView
  | isShownBy
  | isShownAt
deriving DecidableEq, Repr

namespace SourceRole

/-- The roles, in the order in which they are numbered. -/
def all : List SourceRole := [object, hasView, isShownBy, isShownAt]

def name : SourceRole → String
  | object => "OBJECT"
  | hasView => "HAS_VIEW"
  | isShownBy => "IS_SHOWN_BY"
  | isShownAt => "IS_SHOWN_AT"

def codec : Codec SourceRole := .choice all name

end SourceRole

/-- Where a job stands. -/
inductive JobState where
  | ready
  | running
  | pause
  | resume
  | finished
deriving DecidableEq, Repr

namespace JobState

/-- The states in order. -/
def all : List JobState := [ready, running, pause, resume, finished]

def name : JobState → String
  | ready => "READY"
  | running => "RUNNING"
  | pause => "PAUSE"
  | resume => "RESUME"
  | finished => "FINISHED"

/-- Whether tasks of a job in this state may be handed out. -/
def acceptsDispatch : JobState → Bool
  | ready | running | resume => true
  | pause | finished => false

def codec : Codec JobState := .choice all name

end JobState

/-- Where a task that was handed out stands. -/
inductive TaskState where
  | pending
  | running
  | done
  | error
deriving DecidableEq, Repr

namespace TaskState

/-- The states in order. -/
def all : List TaskState := [pending, running, done, error]

def name : TaskState → String
  | pending => "PENDING"
  | running => "RUNNING"
  | done => "DONE"
  | error => "ERROR"

/-- Whether the task has ended. -/
def isTerminal : TaskState → Bool
  | done | error => true
  | pending | running => false

def codec : Codec TaskState := .choice all name

end TaskState

/-- The result of a task as a whole. -/
inductive Verdict where
  /-- The content was retrieved and nothing after it failed. -/
  | success
  | error
deriving DecidableEq, Repr

namespace Verdict

/-- The results, in the order in which they are numbered. -/
def all : List Verdict := [success, error]

def name : Verdict → String
  | success => "SUCCESS"
  | error => "ERROR"

/-- The result of a retrieval and its sub-tasks. -/
def ofRetrieval (state : RetrievalState) (subTasks : SubTaskStates) : Verdict :=
  if state = .completed ∧ subTasks.hasError = false then success else error

/-- The state in which a result leaves its task. -/
def taskState : Verdict → TaskState
  | success => .done
  | error => .error

def codec : Codec Verdict := .choice all name

end Verdict

end MediaHarvest
