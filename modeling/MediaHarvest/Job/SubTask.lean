import MediaHarvest.Json.Codec

/-!
# Sub-tasks

After a retrieval a task may ask for further work on the content.  A task is finished when its
retrieval and every sub-task that it asked for are.
-/

namespace MediaHarvest

open MediaHarvest.Json

/-- Work that may follow a retrieval. -/
inductive SubTask where
  | colorExtraction
  | metaExtraction
  | thumbnailGeneration
  | thumbnailStorage
deriving DecidableEq, Repr

namespace SubTask

/-- The sub-tasks, in the order in which they are numbered. -/
def all : List SubTask := [colorExtraction, metaExtraction, thumbnailGeneration, thumbnailStorage]

def name : SubTask → String
  | colorExtraction => "COLOR_EXTRACTION"
  | metaExtraction => "META_EXTRACTION"
  | thumbnailGeneration => "THUMBNAIL_GENERATION"
  | thumbnailStorage => "THUMBNAIL_STORAGE"

def codec : Codec SubTask := .choice all name

end SubTask

/-- Where a sub-task stands. -/
inductive SubTaskState where
  | neverExecuted
  | success
  | error
  | skipped
deriving DecidableEq, Repr, Inhabited

namespace SubTaskState

/-- The states, in the order in which they are numbered. -/
def all : List SubTaskState := [neverExecuted, success, error, skipped]

def name : SubTaskState → String
  | neverExecuted => "NEVER_EXECUTED"
  | success => "SUCCESS"
  | error => "ERROR"
  | skipped => "SKIPPED"

/-- Whether nothing more will happen. -/
def isTerminal (state : SubTaskState) : Bool := state != neverExecuted

def codec : Codec SubTaskState := .choice all name

end SubTaskState

/-- The states of a retrieval and of every sub-task after it. -/
structure SubTaskStates where
  retrieve : SubTaskState
  colorExtraction : SubTaskState
  metaExtraction : SubTaskState
  thumbnailGeneration : SubTaskState
  thumbnailStorage : SubTaskState
deriving DecidableEq, Repr, Inhabited

namespace SubTaskStates

/-- Nothing has run. -/
def untouched : SubTaskStates := ⟨.neverExecuted, .neverExecuted, .neverExecuted, .neverExecuted,
  .neverExecuted⟩

/-- The state of a sub-task. -/
def get (states : SubTaskStates) : SubTask → SubTaskState
  | .colorExtraction => states.colorExtraction
  | .metaExtraction => states.metaExtraction
  | .thumbnailGeneration => states.thumbnailGeneration
  | .thumbnailStorage => states.thumbnailStorage

/-- The states with another one for a sub-task. -/
def set (states : SubTaskStates) (subTask : SubTask) (state : SubTaskState) : SubTaskStates :=
  match subTask with
  | .colorExtraction => { states with colorExtraction := state }
  | .metaExtraction => { states with metaExtraction := state }
  | .thumbnailGeneration => { states with thumbnailGeneration := state }
  | .thumbnailStorage => { states with thumbnailStorage := state }

/-- The states with another one for the retrieval. -/
def setRetrieve (states : SubTaskStates) (state : SubTaskState) : SubTaskStates :=
  { states with retrieve := state }

@[simp]
theorem get_set (states : SubTaskStates) (subTask other : SubTask) (state : SubTaskState) :
    (states.set subTask state).get other =
      if other = subTask then state else states.get other := by
  cases subTask <;> cases other <;> rfl

/-- Whether the retrieval and every requested sub-task have ended. -/
def isTerminal (states : SubTaskStates) (requested : List SubTask) : Bool :=
  states.retrieve.isTerminal && requested.all fun subTask => (states.get subTask).isTerminal

/-- Whether anything failed. -/
def hasError (states : SubTaskStates) : Bool :=
  states.retrieve == .error || SubTask.all.any fun subTask => states.get subTask == .error

def shape : Shape SubTaskStates SubTaskStates :=
  mk <$> .required "retrieve" SubTaskState.codec retrieve
    <*> .required "color_extraction" SubTaskState.codec colorExtraction
    <*> .required "meta_extraction" SubTaskState.codec metaExtraction
    <*> .required "thumbnail_generation" SubTaskState.codec thumbnailGeneration
    <*> .required "thumbnail_storage" SubTaskState.codec thumbnailStorage

def codec : Codec SubTaskStates := shape.codec "SubTaskStats"

end SubTaskStates

end MediaHarvest
