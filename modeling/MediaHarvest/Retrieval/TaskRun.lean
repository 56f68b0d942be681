import MediaHarvest.Retrieval.Run
import MediaHarvest.Sink.StoragePath

/-!
# Carrying out tasks

A node opens a sink for a task, retrieves the content into it and then lets the content be
processed.  Both together are bounded by the processing time of the task.  Unless this gets stuck or
breaks down, there is one report, in which every sub-task that the task asked for has ended.
-/

namespace MediaHarvest

/-- Work on a content after its retrieval. -/
structure PostProcessing where
  /-- How long it takes; none if it never comes to an end. -/
  delay : Option Span
  /-- The states of the sub-tasks after it. -/
  process : Task → Outcome → SubTaskStates → SubTaskStates

namespace SubTaskStates

/-- Gives a state to the sub-tasks that have none yet. -/
def settle (state : SubTaskState) (requested : List SubTask) (states : SubTaskStates) :
    SubTaskStates :=
  requested.foldl
    (fun states subTask =>
      if (states.get subTask).isTerminal then states else states.set subTask state)
    states

/-- The states after a retrieval that failed: nothing else was tried. -/
def failed (requested : List SubTask) : SubTaskStates :=
  (untouched.setRetrieve .error).settle .skipped requested

/-- The states after a retrieval that succeeded. -/
def retrieved : SubTaskStates := untouched.setRetrieve .success

end SubTaskStates

/-- Leaves out every sub-task. -/
def PostProcessing.skip : PostProcessing :=
  ⟨some .zero, fun task _ states => states.settle .skipped task.subTasks⟩

/-- What a node is set up with. -/
structure NodeSetup where
  node : String
  policy : Policy
  network : Network
  postProcessing : PostProcessing
  sinkKind : SinkKind
  folder : String

/-- What a node leaves behind. -/
structure NodeTrace where
  files : FileTree
  /-- The requests that were sent, the first one first. -/
  requests : List Request
  metrics : Metrics

namespace NodeSetup

/-- What a retrieval of a task has to keep to. -/
def terms (setup : NodeSetup) (task : Task) : Terms :=
  ⟨setup.network, setup.policy, task.limits, task.limits.processingBound⟩

/-- Whether the work after a retrieval takes too long. -/
def overruns (setup : NodeSetup) (task : Task) (elapsed : Span) : Option Span := do
  let bound ← task.limits.processingBound
  match setup.postProcessing.delay with
  | some delay => if bound.nanos < elapsed.nanos + delay.nanos then some bound else none
  | none => some bound

/-- Lets a retrieved content be processed. -/
def process (setup : NodeSetup) (task : Task) (session : Session AnySink) :
    Session AnySink × Except Halt SubTaskStates :=
  match setup.overruns task session.elapsed with
  | some bound =>
      ({ session with outcome := session.outcome.note (Failure.processingTimeout bound).message },
        .ok (SubTaskStates.retrieved.settle .error task.subTasks))
  | none =>
      if setup.postProcessing.delay.isSome then
        (session,
          .ok ((setup.postProcessing.process task session.outcome .retrieved).settle .skipped
            task.subTasks))
      else (session, .error .stuck)

/-- Retrieves the content of a task into an open sink and lets it be processed. -/
def runInto (setup : NodeSetup) (task : Task) (session : Session AnySink) :
    Session AnySink × Except Halt SubTaskStates :=
  match session.retrieve (setup.terms task) task with
  | (session, none) =>
      if session.outcome.state = .completed then setup.process task session
      else (session, .ok (.failed task.subTasks))
  | (session, some .interrupted) =>
      let bound := task.limits.processingTime
      (session.abandon (.processingTimeout bound) bound, .ok (.failed task.subTasks))
  | (session, some halt) => (session, .error halt)

/-- The report of a task. -/
def report (setup : NodeSetup) (task : Task) (outcome : Outcome) (subTasks : SubTaskStates)
    (now : Instant) : Completion where
  job := task.job
  task := task.id
  resource := task.resource
  kind := task.kind
  verdict := .ofRetrieval outcome.state subTasks
  subTasks := subTasks
  outcome := outcome
  node := setup.node
  completedAt := now

/-- Carries out a task; gives its report unless that gets stuck or breaks down. -/
def run (setup : NodeSetup) (task : Task) (trace : NodeTrace) (now : Instant) :
    NodeTrace × Except Halt Completion :=
  let path := StoragePath.ofTask task
  match AnySink.create setup.sinkKind trace.files setup.folder path with
  | (files, .error error) =>
      let location := AnySink.plannedLocation setup.sinkKind setup.folder path
      ({ trace with files := files },
        .ok (setup.report task (.failed location (.sink error.message)) (.failed task.subTasks)
          now))
  | (_, .ok sink) =>
      let (session, result) := setup.runInto task (.start sink trace.requests trace.metrics)
      (⟨session.sink.files, session.requests, session.metrics⟩,
        result.map fun subTasks => setup.report task session.outcome subTasks now)

end NodeSetup

end MediaHarvest
