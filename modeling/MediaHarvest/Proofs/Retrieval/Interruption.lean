import MediaHarvest.Proofs.Retrieval.Consistency
import MediaHarvest.Proofs.Retrieval.Cutoff
import MediaHarvest.Proofs.Retrieval.Filling
import MediaHarvest.Proofs.Retrieval.Parallel
import MediaHarvest.Proofs.Retrieval.Reports
import MediaHarvest.Proofs.Sink.Emptying

/-!
# One report of every task

A node reports once on every task that comes to its end, and the report tells of a task that has
ended.  A task that takes too long is interrupted where it stands: a content that was taken is kept,
and anything else is given up.  What was known by then stays in the outcome, but nothing stays in the
sink.  A task without a limit waits as long as its origin or the work on its content makes it wait, be
it for ever.
-/

namespace MediaHarvest

open Session

/-! ## Giving up -/

namespace Session

variable {near : Session AnySink}

end Session

namespace NodeSetup

/-- What a node makes of a task that is cut short in a session: a content that was taken is kept,
though its sub-tasks have failed, and anything else is given up. -/
def cutShort (task : Task) (session : Session AnySink) : Session AnySink × SubTaskStates :=
  let bound := task.limits.processingTime
  if session.outcome.state = .completed then
    ({ session with outcome := session.outcome.note (Failure.processingTimeout bound).message },
      SubTaskStates.retrieved.settle .error task.subTasks)
  else (session.abandon (.processingTimeout bound) bound, .failed task.subTasks)

variable {setup : NodeSetup} {task : Task} {trace : NodeTrace}
  {first session last after : Session AnySink} {states : SubTaskStates} {bound : Span}

/-- A session in which a retrieval waits, for the network or for its sink: its outcome is what the
task has come to, and the sink may be in the midst of an operation. -/
structure Waits (setup : NodeSetup) (task : Task) (first session : Session AnySink) : Prop where
  reached : ∃ cutoff times log, session.outcome =
    { (((setup.terms task).upTo cutoff).execute task first).1.outcome with
      times := times
      log := log }
  handled : AnySink.Handled first.sink session.sink

/-- The retrieval of a task if nothing interrupts it. -/
def whole (setup : NodeSetup) (task : Task) (first : Session AnySink) :
    Session AnySink × Option Halt :=
  first.retrieve ((setup.terms task).upTo none) task

/-- The retrieval of a task takes longer than up to a time, or for ever. -/
def Outlasts (setup : NodeSetup) (task : Task) (first : Session AnySink) (bound : Span) : Prop :=
  bound.nanos < (setup.whole task first).1.elapsed.nanos ∨
    (setup.whole task first).2 = some .stuck

end NodeSetup

end MediaHarvest
