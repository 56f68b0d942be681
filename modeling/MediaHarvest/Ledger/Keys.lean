import MediaHarvest.Statistics.Record
import MediaHarvest.Store.Partition

/-!
# Keys of the ledger

Every key starts with the name of its kind and a colon.  The parts of an execution's key are
separated by a zero character, so that the executions of one resource are found together and apart
from those of a resource with a longer name.
-/

namespace MediaHarvest.Ledger

/-- The key of a job. -/
def jobKey (id : String) : Bytes := Text.utf8 ("job:" ++ id)

/-- The front that the keys of all jobs share. -/
def jobFront : Bytes := Text.utf8 "job:"

/-- The key of a resource. -/
def resourceKey (id : String) : Bytes := Text.utf8 ("ref:" ++ id)

/-- The front that the keys of a resource's executions share. -/
def executionFront (resource : String) : Bytes := Text.utf8 ("stat:" ++ resource ++ "\x00")

/-- The key of an execution. -/
def executionKey (resource job : String) (kind : TaskKind) : Bytes :=
  Text.utf8 ("stat:" ++ resource ++ "\x00" ++ job ++ "\x00" ++ kind.name)

/-- The key of a latest record. -/
def latestKey (key : LatestKey) : Bytes := Text.utf8 ("last:" ++ key.text)

/-- The key of a note about the ledger itself. -/
def noteKey (name : String) : Bytes := Text.utf8 ("meta:" ++ name)

end MediaHarvest.Ledger
