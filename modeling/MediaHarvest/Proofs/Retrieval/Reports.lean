import MediaHarvest.Retrieval.TaskRun

/-!
# Reports on tasks

A report on a task tells how it ended: its retrieval has a terminal state, and every sub-task that was
asked for has one, too.  Without a content the sub-tasks are left out.
-/

namespace MediaHarvest

/-! ## Sub-tasks -/

namespace SubTaskStates

end SubTaskStates

/-- A report on a task that tells how it ended. -/
structure Completion.WellFormed (completion : Completion) (task : Task) : Prop where
  job : completion.job = task.job
  id : completion.task = task.id
  resource : completion.resource = task.resource
  kind : completion.kind = task.kind
  terminal : completion.outcome.state.isTerminal = true
  settled : completion.subTasks.isTerminal task.subTasks = true
  retrieve : completion.subTasks.retrieve =
    if completion.outcome.state = .completed then .success else .error
  /-- Without a content nothing else was tried. -/
  skipped : completion.outcome.state ≠ .completed → ∀ subTask,
    completion.subTasks.get subTask =
      if subTask ∈ task.subTasks then .skipped else .neverExecuted
  verdict : completion.verdict = .success ↔ completion.outcome.state = .completed ∧
    ∀ subTask, completion.subTasks.get subTask ≠ .error

namespace NodeSetup

variable {setup : NodeSetup} {task : Task} {outcome : Outcome} {subTasks : SubTaskStates}

end NodeSetup

end MediaHarvest
