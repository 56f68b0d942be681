import MediaHarvest.Job.Basic
import MediaHarvest.Retrieval.Transfer

/-!
# Retrievals

A retrieval carries out one task.  A task that only checks a link asks for the header fields; a
conditional download does so first and is complete if the length is the one that is already known;
else the content is downloaded.  Every failure ends up in the outcome, and what reached the sink of
a failed retrieval is discarded.  Only a retrieval that is interrupted, gets stuck or breaks down has
no end of its own.
-/

namespace MediaHarvest

/-- Reads the link of a task, which has to lead to the web. -/
def Task.link (domains : Domains) (task : Task) : Except Failure Url :=
  let raw := (task.url.map Text.trim).getD ""
  if raw = "" then .error (.malformedInput "missing url")
  else
    match Url.parse domains none raw with
    | .error error => .error (.malformedInput s!"{raw}: {error.message}")
    | .ok url =>
        if url.isWeb then .ok url else .error (.malformedInput s!"{raw}: unsupported url")

namespace Terms

open Stage

variable {σ : Type}

/-- The line that a changed length leaves in the log. -/
def lengthChange (previous : UInt64) (current : Option UInt64) : String :=
  let found := match current with
    | some length => toString length
    | none => "unknown"
  s!"content length changed from {previous} to {found}"

/-- Looks whether the content still has the length that is known. -/
def isUnchanged (terms : Terms) (url : Url) (previous : UInt64) : Stage σ Bool := do
  edit (Outcome.advance .checkingExistence)
  let current ← terms.check url
  if current = some previous then
    edit (Outcome.advance .skippedCompleted)
    pure true
  else
    edit fun outcome =>
      { outcome.note (lengthChange previous current) with redirectionPath := [] }
    pure false

/-- Starts the download. -/
def beginDownload [Sink σ] (terms : Terms) (url : Url) : Stage σ Nat := do
  edit (Outcome.advance .downloading)
  terms.download url

/-- Carries out a task whose link is known; gives the size of the content that was taken. -/
def carryOut [Sink σ] (terms : Terms) (task : Task) (url : Url) : Stage σ Nat :=
  match task.kind, task.previousLength with
  | .checkLink, _ => do
      edit (Outcome.advance .checkingExistence)
      let _ ← terms.check url
      pure 0
  | .conditionalDownload, some previous => do
      if ← terms.isUnchanged url previous then pure 0 else terms.beginDownload url
  | _, _ => terms.beginDownload url

/-- Sets the time by which the retrieval has to end, which the clock has to be able to show. -/
def setDeadline (terms : Terms) : Stage σ Unit := do
  let now ← clock
  match terms.limits.retrievalBound with
  | some bound => if terms.network.Shows now bound then pure () else breakDown
  | none => pure ()

/-- Carries out a task up to its end; gives the size of the content that was taken. -/
def execute [Sink σ] (terms : Terms) (task : Task) : Stage σ Nat :=
  match task.link terms.network.domains with
  | .error failure => fail failure
  | .ok url => do
      terms.setDeadline
      terms.carryOut task url

end Terms

namespace Session

variable {σ : Type} [Sink σ]

/-- A session in which nothing has happened yet. -/
def start (sink : σ) (requests : List Request) (metrics : Metrics) : Session σ :=
  ⟨.start (Sink.location sink), sink, .zero, requests, metrics⟩

/-- Applies an operation of the sink; a refusal is noted after `label`. -/
def onSink (operation : σ → σ × Except SinkError Unit) (label : String) (session : Session σ) :
    Session σ :=
  let (sink, answer) := operation session.sink
  match answer with
  | .ok () => { session with sink := sink }
  | .error error =>
      { session with
        sink := sink
        outcome := session.outcome.note s!"{label}: {error.message}" }

/-- Discards what reached the sink and ends the outcome with a failure. -/
def discard (failure : Failure) (session : Session σ) : Session σ :=
  let closed :=
    (session.onSink Sink.truncate "failed to discard partial body").onSink Sink.finish
      "failed to close sink"
  { closed with outcome := closed.outcome.fail failure }

omit [Sink σ] in
/-- Counts the end of the retrieval. -/
def report (elapsed : Span) (session : Session σ) : Session σ :=
  { session with metrics := session.metrics.retrievalFinished session.outcome.state elapsed }

/-- Closes the sink after the content was taken, and ends the outcome. -/
def conclude (bytes : Nat) (session : Session σ) : Session σ :=
  let (sink, answer) := Sink.finish session.sink
  let session := { session with sink := sink }
  match answer with
  | .ok () => { session with outcome := session.outcome.complete (UInt64.ofNat bytes) }
  | .error error => session.discard (.sink error.message)

/-- Carries out a task; tells why it did not come to its end if it did not. -/
def retrieve (terms : Terms) (task : Task) (session : Session σ) : Session σ × Option Halt :=
  match terms.execute task session with
  | (session, .ok bytes) =>
      let ended := session.conclude bytes
      (ended.report ended.elapsed, none)
  | (session, .error (.failure failure)) =>
      let ended := session.discard failure
      (ended.report ended.elapsed, none)
  | (session, .error (.halted halt)) => (session, some halt)

/-- Ends an interrupted retrieval with a failure; one that has ended stays as it is. -/
def abandon (failure : Failure) (elapsed : Span) (session : Session σ) : Session σ :=
  if session.outcome.state.isTerminal then session
  else (session.discard failure).report elapsed

end Session

end MediaHarvest
