import MediaHarvest.Net.Codec
import MediaHarvest.Retrieval.State
import MediaHarvest.Retrieval.Storage
import MediaHarvest.Time.Codec

/-!
# The outcome of a retrieval

An outcome is built up while a retrieval runs.  Once its state is terminal it no longer changes:
`Outcome.advance`, `Outcome.complete` and `Outcome.fail` leave a terminal outcome as it is.
-/

namespace MediaHarvest

open MediaHarvest.Json

/-- The phases of a retrieval that are timed. -/
inductive Phase where
  /-- From the start of a request for content to its response headers. -/
  | connect
  | checking
  | retrieval
deriving DecidableEq, Repr

/-- How long each phase took; zero for one that did not run. -/
structure PhaseTimes where
  connect : Span
  checking : Span
  retrieval : Span
deriving DecidableEq, Repr

namespace PhaseTimes

/-- No phase has run. -/
def none : PhaseTimes := ⟨.zero, .zero, .zero⟩

/-- Notes the time of a phase. -/
def record (times : PhaseTimes) (phase : Phase) (span : Span) : PhaseTimes :=
  match phase with
  | .connect => { times with connect := span }
  | .checking => { times with checking := span }
  | .retrieval => { times with retrieval := span }

def shape : Shape PhaseTimes PhaseTimes :=
  mk <$> .required "connect_ms" Span.codec connect
    <*> .required "checking_ms" Span.codec checking
    <*> .required "retrieval_ms" Span.codec retrieval

def codec : Codec PhaseTimes := shape.codec "PhaseDurations"

end PhaseTimes

/-- Header fields by name. -/
abbrev Headers := SortedMap String String

/-- What is known of a retrieval. -/
structure Outcome where
  state : RetrievalState
  /-- Every state that was visited, in order. -/
  history : List RetrievalState
  /-- The size of the content that was taken. -/
  bytesTransferred : UInt64
  /-- The status of the last response. -/
  httpStatus : Option UInt16
  contentType : Option String
  /-- The header fields of the last response. -/
  headers : Headers
  /-- The address that the content came from. -/
  sourceAddress : Option Address
  times : PhaseTimes
  redirectionPath : List String
  log : String
  storage : Storage
deriving DecidableEq

namespace Outcome

/-- A retrieval that has not begun. -/
def start (storage : Storage) : Outcome where
  state := .pending
  history := [.pending]
  bytesTransferred := 0
  httpStatus := none
  contentType := none
  headers := ∅
  sourceAddress := none
  times := .none
  redirectionPath := []
  log := ""
  storage := storage

/-- Moves on to another state, unless the retrieval has ended. -/
def advance (next : RetrievalState) (outcome : Outcome) : Outcome :=
  if outcome.state.isTerminal then outcome
  else { outcome with state := next, history := outcome.history ++ [next] }

/-- Adds a line to the log. -/
def note (line : String) (outcome : Outcome) : Outcome :=
  { outcome with log := if outcome.log.isEmpty then line else outcome.log ++ "\n" ++ line }

/-- Ends the retrieval with a content of the given size, unless it has ended. -/
def complete (bytes : UInt64) (outcome : Outcome) : Outcome :=
  if outcome.state.isTerminal then outcome
  else { outcome with bytesTransferred := bytes }.advance .completed

/-- Ends the retrieval with a failure, unless it has ended; the content counts for nothing. -/
def fail (failure : Failure) (outcome : Outcome) : Outcome :=
  if outcome.state.isTerminal then outcome
  else ({ outcome with bytesTransferred := 0 }.note failure.message).advance failure.terminalState

/-- The outcome of a task that failed before its retrieval began. -/
def failed (storage : Storage) (failure : Failure) : Outcome := (start storage).fail failure

def shape : Shape Outcome Outcome :=
  mk <$> .required "state" RetrievalState.codec state
    <*> .required "history" (.list RetrievalState.codec) history
    <*> .required "bytes_transferred" .word64 bytesTransferred
    <*> .optional "http_status" .word16 httpStatus
    <*> .optional "content_type" .text contentType
    <*> .required "headers" (.map .text) headers
    <*> .optional "source_ip" Address.codec sourceAddress
    <*> .required "durations" PhaseTimes.codec times
    <*> .required "redirection_path" (.list .text) redirectionPath
    <*> .required "log" .text log
    <*> .required "storage" Storage.codec storage

def codec : Codec Outcome := shape.codec "RetrievalOutcome"

end Outcome

end MediaHarvest
