import MediaHarvest.Json.Codec
import MediaHarvest.Time.Span

/-!
# States and failures of a retrieval

A retrieval starts pending, may check whether the content changed, downloads or skips the download,
and ends in one of four terminal states.  A `Failure` says why it did not complete, and each failure
belongs to one terminal state.
-/

namespace MediaHarvest

/-- Where a retrieval stands. -/
inductive RetrievalState where
  | pending
  /-- The headers alone are being asked for. -/
  | checkingExistence
  /-- The content is the one that is already known. -/
  | skippedCompleted
  | downloading
  | completed
  | error
  | abortedTimeLimit
  | abortedSizeLimit
deriving DecidableEq, Repr

namespace RetrievalState

/-- The states, in the order in which they are numbered. -/
def all : List RetrievalState :=
  [pending, checkingExistence, skippedCompleted, downloading, completed, error, abortedTimeLimit,
    abortedSizeLimit]

def name : RetrievalState → String
  | pending => "PENDING"
  | checkingExistence => "CHECKING_EXISTENCE"
  | skippedCompleted => "SKIPPED_COMPLETED"
  | downloading => "DOWNLOADING"
  | completed => "COMPLETED"
  | error => "ERROR"
  | abortedTimeLimit => "ABORTED_TIME_LIMIT"
  | abortedSizeLimit => "ABORTED_SIZE_LIMIT"

/-- Whether the retrieval has ended. -/
def isTerminal : RetrievalState → Bool
  | completed | error | abortedTimeLimit | abortedSizeLimit => true
  | _ => false

def codec : Json.Codec RetrievalState := .choice all name

end RetrievalState

/-- Why a retrieval did not complete. -/
inductive Failure where
  /-- The task cannot be carried out as it is given. -/
  | malformedInput (reason : String)
  | unresolved (host reason : String)
  | connectTimeout (bound : Span)
  | readTimeout (bound : Span)
  /-- The retrieval and the processing took too long. -/
  | processingTimeout (bound : Span)
  | tooSlow (observed floor : UInt64)
  /-- There are more redirects than may be followed. -/
  | tooManyRedirects (budget : UInt32)
  | httpStatus (status : UInt16)
  | tooLarge (observed limit : UInt64)
  | network (detail : String)
  /-- The content could not be put down. -/
  | sink (detail : String)
deriving DecidableEq, Repr

namespace Failure

/-- The line that a failure leaves in the log. -/
def message : Failure → String
  | malformedInput reason => s!"malformed input: {reason}"
  | unresolved host reason => s!"DNS resolution failed for {host}: {reason}"
  | connectTimeout bound => s!"connection not established within {bound.text}"
  | readTimeout bound => s!"retrieval exceeded time limit of {bound.text}"
  | processingTimeout bound => s!"task processing exceeded time limit of {bound.text}"
  | tooSlow observed floor => s!"throughput {observed} B/s below floor of {floor} B/s"
  | tooManyRedirects budget => s!"more than {budget} redirects"
  | httpStatus status => s!"HTTP status {status}"
  | tooLarge observed limit => s!"content size {observed} exceeds limit of {limit} bytes"
  | network detail => s!"network failure: {detail}"
  | sink detail => s!"sink failure: {detail}"

/-- The state in which a failure ends a retrieval. -/
def terminalState : Failure → RetrievalState
  | connectTimeout _ | readTimeout _ | processingTimeout _ | tooSlow .. => .abortedTimeLimit
  | tooLarge .. => .abortedSizeLimit
  | malformedInput _ | unresolved .. | tooManyRedirects _ | httpStatus _ | network _ | sink _ =>
      .error

end Failure

end MediaHarvest
