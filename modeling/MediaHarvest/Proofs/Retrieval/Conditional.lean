import MediaHarvest.Proofs.Retrieval.Consistency
import MediaHarvest.Proofs.Retrieval.Filling
import MediaHarvest.Proofs.Retrieval.Parallel

/-!
# Conditional downloads

A conditional download is one of the other two kinds of tasks, as the check comes out.  Without a
known length nothing is checked, and it is a plain download.  If the check fails it is a check.  If
the length is the known one it is complete at once, and otherwise the download overwrites what the
check left behind, so that it ends as a plain one does.
-/

namespace MediaHarvest

/-- The task as one of another kind. -/
def Task.as (task : Task) (kind : TaskKind) : Task := { task with kind := kind }

namespace Terms

open Stage

variable {σ : Type} {terms : Terms} {task : Task} {url : Url} {first near : Session σ}
  {response : Response} {previous : UInt64} {stop : Stop}

/-! ## The check -/

variable [Sink σ]

end Terms

/-! ## The end -/

namespace Session

open Stage Terms

variable {σ : Type} [Sink σ] {view : SinkView σ} {terms : Terms} {task task' : Task} {url : Url}
  {first near after last : Session σ} {response : Response} {previous : UInt64} {stop : Stop}

end Session

end MediaHarvest
