import MediaHarvest.Proofs.Retrieval.Returning
import MediaHarvest.Proofs.Retrieval.Triples

/-!
# Outcomes agree with their sinks

The outcome of a retrieval that came to its end tells the truth about its sink: the size that it
reports is what the sink holds, a completed download left the whole body of a success there, and
nothing is left of any other retrieval.  A retrieval that nothing interrupts comes to its end if every
wait has one.  A task without a link to the web fails before a request is sent.
-/

namespace MediaHarvest

/-- The states of a retrieval up to its end: it begins pending, may check, and may then download, or
skip a download that it checked and complete at once. -/
def RetrievalState.Course (history : List RetrievalState) (last : RetrievalState) : Prop :=
  ∃ checks loads, history = [pending] ++ checks ++ loads ++ [last] ∧
    (checks = [] ∨ checks = [checkingExistence]) ∧
    (loads = [] ∨ loads = [downloading] ∨
      loads = [skippedCompleted] ∧ checks = [checkingExistence] ∧ last = completed)

/-- The outcome of a retrieval that came to its end agrees with its sink. -/
structure Session.Consistent {σ : Type} [Sink σ] (view : SinkView σ) (network : Network)
    (first : List Request) (session : Session σ) : Prop where
  terminal : session.outcome.state.isTerminal = true
  course : RetrievalState.Course session.outcome.history session.outcome.state
  bytes : session.outcome.bytesTransferred = UInt64.ofNat (Sink.accepted session.sink)
  success : session.outcome.state = .completed →
    ∃ status, session.outcome.httpStatus = some status ∧ 200 ≤ status ∧ status < 300
  /-- What was downloaded is the whole body of the response to the last request. -/
  downloaded : session.outcome.state = .completed → .downloading ∈ session.outcome.history →
    ∃ response, response.body.ending.IsComplete ∧
      view.contents session.sink = response.body.content ∧
      Terms.Accepted network first .get response session.requests session.outcome.httpStatus
  untouched : session.outcome.state = .completed → .downloading ∉ session.outcome.history →
    view.contents session.sink = []
  discarded : session.outcome.state ≠ .completed →
    session.outcome.bytesTransferred = 0 ∧ view.contents session.sink = []

/-! ## Carrying out a task -/

namespace Terms

open Stage Session RetrievalState

variable {σ : Type} [Sink σ] {terms : Terms} {view : SinkView σ} {first : List Request}

/-- The states that a retrieval may have visited when it fails. -/
def Begun (visited : List RetrievalState) : Prop :=
  ∃ checks loads, visited = [pending] ++ checks ++ loads ∧
    (checks = [] ∨ checks = [checkingExistence]) ∧ (loads = [] ∨ loads = [downloading])

/-- A session whose task failed, with any part of a content. -/
def Failed (view : SinkView σ) (first : List Request) (session : Session σ) : Prop :=
  ∃ visited, Begun visited ∧ session.Spoilt view visited (Since first)

/-- A session whose task was carried out, and the size of the content that was taken. -/
inductive Fulfilled (network : Network) (view : SinkView σ) (first : List Request)
    (session : Session σ) : Nat → Prop where
  | checked {response : Response} {loads : List RetrievalState}
      (skips : loads = [] ∨ loads = [skippedCompleted])
      (stands : session.Stands view ([pending, checkingExistence] ++ loads) []
        (Accepted network first .head response)) : Fulfilled network view first session 0
  | downloaded {response : Response} {checks : List RetrievalState}
      (checked : checks = [] ∨ checks = [checkingExistence])
      (complete : response.body.ending.IsComplete)
      (stands : session.Stands view ([pending] ++ checks ++ [downloading]) response.body.content
        (Accepted network first .get response)) :
      Fulfilled network view first session response.body.content.length

/-- Moving on to a state that is not the end. -/
theorem meets_advance {visited : List RetrievalState} {contents : Bytes} {past : Past}
    {next : RetrievalState} (going : next.isTerminal = false) {failed : Session σ → Prop} :
    Meets (Stands view visited contents past) (edit (Outcome.advance next))
      (fun _ => Stands view (visited ++ [next]) contents past) failed := by
  apply meets_edit
  intro session stands
  rw [Outcome.advance, if_neg (by rw [stands.going]; exact Bool.false_ne_true)]
  exact { stands with going := going, visited := by rw [← stands.visited] }

/-- A task that begins to check has failed if it stops. -/
theorem failed_of_checking {session : Session σ}
    (stands : session.Stands view [pending, checkingExistence] [] (Since first)) :
    Failed view first session :=
  ⟨_, ⟨[checkingExistence], [], rfl, .inr rfl, .inl rfl⟩, [], stands⟩

/-- Looking for a change fails, skips the download, or leaves it to be done. -/
theorem meets_isUnchanged (uncut : terms.cutoff = none) (url : Url) (previous : UInt64) :
    Meets (Stands view [pending] [] (Since first)) (terms.isUnchanged url previous)
      (fun unchanged session =>
        if unchanged then Fulfilled terms.network view first session 0
        else session.Stands view [pending, checkingExistence] [] (Since first))
      (Failed view first) := by
  apply (meets_advance rfl).bind
  intro _
  apply ((meets_check uncut url).weaken (fun _ _ checked => checked)
    fun _ => failed_of_checking).bind
  intro current
  split
  · apply meets_of_exists
    intro response
    apply (meets_advance rfl).bind
    intro _
    apply meets_pure
    exact fun _ stands => .checked (.inr rfl) stands
  · apply meets_of_exists
    intro response
    apply Idle.before
    · exact idle_edit (fun _ => rfl) (fun _ => rfl) fun _ => rfl
    · exact fun _ stands => failed_of_checking (stands.weaken fun _ _ accepted => accepted.1.since)
    intro _
    apply meets_pure
    exact fun _ stands => stands.weaken fun _ _ accepted => accepted.1.since

end Terms

/-! ## The end -/

namespace Session

open RetrievalState

variable {σ : Type} [Sink σ] {view : SinkView σ} {first : List Request} {session : Session σ}

/-- Discarding empties the sink and ends the outcome as the failure says. -/
theorem discard_of_ready (ready : view.Ready session.sink) (failure : Failure) :
    ∃ sink, Sink.accepted sink = 0 ∧ view.contents sink = [] ∧
      session.discard failure =
        { session with sink := sink, outcome := session.outcome.fail failure } := by
  obtain ⟨emptied, truncated, still, empty⟩ := view.truncate ready
  obtain ⟨closed, finished, size, same⟩ := view.finish still
  refine ⟨closed, ?_, ?_, ?_⟩
  · rw [size, view.accepted still, empty]
    rfl
  · rw [same, empty]
  · simp only [discard, onSink, truncated, finished]

/-- Coming to the end closes the sink and completes the outcome. -/
theorem conclude_of_ready (going : session.outcome.state.isTerminal = false)
    (ready : view.Ready session.sink) (size : Nat) :
    ∃ sink, Sink.accepted sink = (view.contents session.sink).length ∧
      view.contents sink = view.contents session.sink ∧
      session.conclude size =
        { session with
          sink := sink
          outcome :=
            { session.outcome with
              state := .completed
              history := session.outcome.history ++ [.completed]
              bytesTransferred := UInt64.ofNat size } } := by
  obtain ⟨closed, finished, accepted, same⟩ := view.finish ready
  refine ⟨closed, accepted.trans (view.accepted ready), same, ?_⟩
  simp only [conclude, finished]
  rw [Outcome.complete_of_going going]

end Session

namespace Session

variable {σ : Type} [Sink σ] {view : SinkView σ} {terms : Terms}

/-- Counting the end of a retrieval changes neither its outcome nor its sink. -/
theorem Consistent.report {network : Network} {first : List Request} {session : Session σ}
    (consistent : session.Consistent view network first) (elapsed : Span) :
    (session.report elapsed).Consistent view network first :=
  { consistent with }

end Session

/-! ## A page behind a redirect -/

/-- An origin that redirects the first request, and answers the others with a page in two pieces. -/
def pageNetwork : Network where
  lookup _ := .answered .zero (.error "no such host")
  exchange
    | [], _ => .answered .zero
        ⟨302, [("location", Text.utf8 "/page")], none, ⟨[], .complete .zero⟩⟩
    | _, _ => .answered (.ofMillis 1)
        ⟨200, [], none, ⟨[⟨.zero, [1, 2]⟩, ⟨.ofMillis 5, [3]⟩], .complete .zero⟩⟩
  domains := .common
  uptime := .zero

/-- A download of the page. -/
def pageTask : Task where
  id := "page:0"
  job := "page"
  resource := "page"
  url := some "http://192.0.2.1/"
  kind := .unconditionalDownload
  limits := .unlimited
  previousHeaders := ∅
  subTasks := []
  owner := ⟨"", "", "", ""⟩

end MediaHarvest
