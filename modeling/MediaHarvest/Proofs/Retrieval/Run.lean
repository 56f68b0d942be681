import MediaHarvest.Proofs.Retrieval.Stages
import MediaHarvest.Retrieval.TaskRun

/-!
# What a retrieval leaves behind

The header fields of an outcome are those of the last success that was noted, or there are none.
`Traced` tells how a retrieval came by them: a retrieval that fails may have heard a success before,
and one that comes to its end has checked a link, skipped a known content or taken a body.  Nothing
that happens after the last response changes this, up to the report of a node.
-/

namespace MediaHarvest

/-- The header fields that are noted of a response; of several with one name the last counts. -/
def Response.notedHeaders (response : Response) : Headers :=
  .ofList (response.headers.map fun header => (header.1, Text.lossy header.2))

/-- Between two records of requests a success was heard, and an outcome holds its header fields. -/
structure Heard (network : Network) (first last : List Request) (outcome : Outcome)
    (method : Method) (response : Response) : Prop where
  answered : network.Answered first last method response
  success : response.isSuccess = true
  headers : outcome.headers = response.notedHeaders

/-- How the outcome of a task came by its header fields, between two records of requests; the last
argument tells whether the task came to its end. -/
inductive Traced (network : Network) (task : Task) (first last : List Request)
    (outcome : Outcome) : Bool → Prop where
  | unanswered (headers : outcome.headers = ∅) : Traced network task first last outcome false
  | failed {method : Method} {response : Response}
      (heard : Heard network first last outcome method response) :
      Traced network task first last outcome false
  | checked {response : Response} (kind : task.kind = .checkLink)
      (heard : Heard network first last outcome .head response)
      (unskipped : .skippedCompleted ∉ outcome.history) :
      Traced network task first last outcome true
  | skipped {response : Response} {length : UInt64} (kind : task.kind = .conditionalDownload)
      (previous : task.previousLength = some length)
      (heard : Heard network first last outcome .head response)
      (declared : response.declaredLength = some length)
      (visited : .skippedCompleted ∈ outcome.history) :
      Traced network task first last outcome true
  | downloaded {response : Response} (heard : Heard network first last outcome .get response)
      (visited : .downloading ∈ outcome.history)
      (unskipped : .skippedCompleted ∉ outcome.history) :
      Traced network task first last outcome true

section Traced

variable {network : Network} {task : Task} {first last last' : List Request}
  {outcome outcome' : Outcome} {method : Method} {response : Response} {ended : Bool}

theorem Heard.keep (heard : Heard network first last outcome method response)
    (same : outcome'.headers = outcome.headers) (more : last <+: last') :
    Heard network first last' outcome' method response :=
  ⟨heard.answered.widen List.prefix_rfl more, heard.success, same.trans heard.headers⟩

/-- A task that does not come to its end after all has failed. -/
theorem Traced.fail (traced : Traced network task first last outcome ended)
    (same : outcome'.headers = outcome.headers) (more : last <+: last') :
    Traced network task first last' outcome' false := by
  cases traced with
  | unanswered headers => exact .unanswered (same.trans headers)
  | failed heard => exact .failed (heard.keep same more)
  | checked kind heard => exact .failed (heard.keep same more)
  | skipped kind previous heard => exact .failed (heard.keep same more)
  | downloaded heard => exact .failed (heard.keep same more)

/-- Going on to the end changes nothing as to what was visited before. -/
theorem Traced.goOn (traced : Traced network task first last outcome ended)
    (same : outcome'.headers = outcome.headers) (more : last <+: last')
    (visited : ∀ state, state ≠ .completed →
      (state ∈ outcome'.history ↔ state ∈ outcome.history)) :
    Traced network task first last' outcome' ended := by
  have skips := visited .skippedCompleted (by decide)
  have loads := visited .downloading (by decide)
  cases traced with
  | unanswered headers => exact .unanswered (same.trans headers)
  | failed heard => exact .failed (heard.keep same more)
  | checked kind heard unskipped =>
      exact .checked kind (heard.keep same more) (mt skips.1 unskipped)
  | skipped kind previous heard declared visited =>
      exact .skipped kind previous (heard.keep same more) declared (skips.2 visited)
  | downloaded heard visited unskipped =>
      exact .downloaded (heard.keep same more) (loads.2 visited) (mt skips.1 unskipped)

end Traced

/-- An outcome that has not ended moves on. -/
theorem Outcome.advance_of_going {outcome : Outcome} (going : outcome.state.isTerminal = false)
    (next : RetrievalState) :
    outcome.advance next =
      { outcome with state := next, history := outcome.history ++ [next] } := by
  rw [advance, going]
  rfl

namespace Terms

open Stage

variable {σ α : Type} {terms : Terms}

/-! ## Checking and downloading -/

/-- A stage that noted a success, and nothing else as to the outcome. -/
structure Noted (terms : Terms) (session after : Session σ) (method : Method)
    (response : Response) : Prop where
  state : after.outcome.state = session.outcome.state
  history : after.outcome.history = session.outcome.history
  requests : session.requests <+: after.requests
  heard : Heard terms.network session.requests after.requests after.outcome method response

theorem Noted.onward {session middle after : Session σ} {method : Method} {response : Response}
    (noted : terms.Noted session middle method response) (onward : middle.Onward after) :
    terms.Noted session after method response where
  state := onward.state.trans noted.state
  history := onward.history.trans noted.history
  requests := noted.requests.trans onward.requests
  heard := noted.heard.keep onward.headers onward.requests

/-- A fetch fails quietly, or its response is noted before anything else happens. -/
theorem noting (terms : Terms) (phase : Phase) (method : Method) (url : Url)
    (next : Response → Stage σ α) (session : Session σ) :
    let stage : Stage σ α := do
      let response ← timed phase (terms.fetch method url)
      noteHeaders response
      next response
    (∃ after stop, stage session = (after, .error stop) ∧ session.Onward after) ∨
      ∃ middle response, terms.Noted session middle method response ∧
        stage session = next response middle := by
  intro stage
  obtain ⟨onward, answered⟩ := (asks_fetch terms method url).timed phase session
  have success := (gives_fetch terms method url).timed phase session
  rcases bind_cases (timed phase (terms.fetch method url))
      (fun response => noteHeaders response >>= fun _ => next response) session with
    ⟨middle, response, ended, goesOn⟩ | ⟨middle, stop, ended, stops⟩
  · rw [ended] at onward answered success
    right
    refine ⟨(noteHeaders response middle).1, response, ?_, goesOn⟩
    constructor
    · exact onward.state
    · exact onward.history
    · exact onward.requests
    · exact ⟨answered response rfl, success response rfl, rfl⟩
  · rw [ended] at onward
    left
    exact ⟨middle, stop, stops, onward⟩

/-- Asking for the header fields alone fails quietly, or gives the length that a success
declares. -/
theorem check_cases (terms : Terms) (url : Url) (session : Session σ) :
    (∃ after stop, terms.check url session = (after, .error stop) ∧ session.Onward after) ∨
      ∃ after response, terms.check url session = (after, .ok response.declaredLength) ∧
        terms.Noted session after .head response := by
  rcases noting terms .checking .head url (fun response => pure response.declaredLength) session
    with quiet | ⟨after, response, noted, ends⟩
  · exact .inl quiet
  · exact .inr ⟨after, response, ends, noted⟩

theorem quiet_takeResponse [Sink σ] (terms : Terms) (response : Response) :
    (terms.takeResponse response : Stage σ Nat).Quiet := by
  have taking : (do
      let started ← clock
      timed .retrieval (terms.takeBody started response.body.ending response.body.chunks 0) :
        Stage σ Nat).Quiet := by
    apply quiet_clock.bind
    intro started
    exact (quiet_takeBody terms started _ response.body.chunks 0).timed .retrieval
  unfold takeResponse
  split
  · exact (quiet_checkSize terms _).bind fun _ => taking
  · exact taking

/-- A download fails quietly, or notes a success, whatever becomes of the body. -/
theorem download_cases [Sink σ] (terms : Terms) (url : Url) (session : Session σ) :
    (∃ after stop, terms.download url session = (after, .error stop) ∧ session.Onward after) ∨
      ∃ response, terms.Noted session (terms.download url session).1 .get response := by
  rw [download]
  rcases noting terms .connect .get url (takeResponse terms) session with
    quiet | ⟨middle, response, noted, goesOn⟩
  · exact .inl quiet
  · right
    refine ⟨response, ?_⟩
    rw [goesOn]
    exact noted.onward (quiet_takeResponse terms response middle)

/-! ## Carrying out a task -/

/-- A retrieval that has not ended, with the states that it has visited. -/
structure At (session : Session σ) (visited : List RetrievalState) : Prop where
  going : session.outcome.state.isTerminal = false
  visited : session.outcome.history = visited

theorem At.onward {session after : Session σ} {visited : List RetrievalState}
    (stands : At session visited) (onward : session.Onward after) : At after visited :=
  ⟨onward.state ▸ stands.going, onward.history.trans stands.visited⟩

theorem At.noted {session after : Session σ} {visited : List RetrievalState} {method : Method}
    {response : Response} (stands : At session visited)
    (noted : terms.Noted session after method response) : At after visited :=
  ⟨noted.state ▸ stands.going, noted.history.trans stands.visited⟩

/-- The session after moving on to another state. -/
def moved (next : RetrievalState) (session : Session σ) : Session σ :=
  { session with outcome := session.outcome.advance next }

theorem edit_advance (next : RetrievalState) (session : Session σ) :
    edit (Outcome.advance next) session = (moved next session, .ok ()) := rfl

theorem headers_moved (next : RetrievalState) (session : Session σ) :
    (moved next session).outcome.headers = session.outcome.headers := by
  change (Outcome.advance next session.outcome).headers = _
  rw [Outcome.advance]
  split
  · rfl
  · rfl

/-- Moving on to a state that is not the end. -/
theorem At.moved {session : Session σ} {visited : List RetrievalState}
    (stands : At session visited) {next : RetrievalState} (going : next.isTerminal = false) :
    At (moved next session) (visited ++ [next]) := by
  have advanced := Outcome.advance_of_going stands.going next
  constructor
  · exact (congrArg (·.state.isTerminal) advanced).trans going
  · rw [← stands.visited]
    exact congrArg (·.history) advanced

/-- Looking for a change fails quietly, or notes a success; the download is skipped exactly if the
success declares the length that is known. -/
theorem isUnchanged_cases (terms : Terms) (url : Url) (previous : UInt64) {session : Session σ}
    {visited : List RetrievalState} (stands : At session visited) :
    (∃ after stop, terms.isUnchanged url previous session = (after, .error stop) ∧
      At after (visited ++ [.checkingExistence]) ∧
      after.outcome.headers = session.outcome.headers) ∨
    ∃ after response,
      Heard terms.network session.requests after.requests after.outcome .head response ∧
      (terms.isUnchanged url previous session = (after, .ok true) ∧
          response.declaredLength = some previous ∧
          At after (visited ++ [.checkingExistence] ++ [.skippedCompleted]) ∨
        terms.isUnchanged url previous session = (after, .ok false) ∧
          At after (visited ++ [.checkingExistence])) := by
  have began : At (moved .checkingExistence session) (visited ++ [.checkingExistence]) :=
    stands.moved rfl
  unfold isUnchanged
  rw [bind_of_ok (edit_advance .checkingExistence session)]
  rcases check_cases terms url (moved .checkingExistence session) with
    ⟨after, stop, ended, onward⟩ | ⟨middle, response, ended, noted⟩
  · left
    rw [bind_of_error ended]
    refine ⟨after, stop, rfl, began.onward onward, ?_⟩
    exact onward.headers.trans (headers_moved _ session)
  · right
    rw [bind_of_ok ended]
    have stood := began.noted noted
    by_cases same : response.declaredLength = some previous
    · rw [if_pos same, bind_of_ok (edit_advance .skippedCompleted middle)]
      have skipped : At (moved .skippedCompleted middle) _ := stood.moved rfl
      refine ⟨moved .skippedCompleted middle, response, ?_, .inl ⟨rfl, same, skipped⟩⟩
      exact noted.heard.keep (headers_moved _ middle) List.prefix_rfl
    · rw [if_neg same]
      let changed (outcome : Outcome) : Outcome :=
        { outcome.note (lengthChange previous response.declaredLength) with redirectionPath := [] }
      refine ⟨(edit changed middle).1, response, ?_, .inr ⟨rfl, stood.going, stood.visited⟩⟩
      exact noted.heard.keep rfl List.prefix_rfl

/-- A download that was started is under way; it fails without a response, or notes a success. -/
theorem beginDownload_cases [Sink σ] (terms : Terms) (url : Url) {session : Session σ}
    {visited : List RetrievalState} (stands : At session visited) :
    ∃ after result, terms.beginDownload url session = (after, result) ∧
      At after (visited ++ [.downloading]) ∧ session.requests <+: after.requests ∧
      ((∃ stop, result = .error stop ∧ after.outcome.headers = session.outcome.headers) ∨
        ∃ response,
          Heard terms.network session.requests after.requests after.outcome .get response) := by
  have began : At (moved .downloading session) (visited ++ [.downloading]) := stands.moved rfl
  unfold beginDownload
  rw [bind_of_ok (edit_advance .downloading session)]
  rcases download_cases terms url (moved .downloading session) with
    ⟨after, stop, ended, onward⟩ | ⟨response, noted⟩
  · have stood := began.onward onward
    refine ⟨after, .error stop, ended, stood, onward.requests, .inl ⟨stop, rfl, ?_⟩⟩
    exact onward.headers.trans (headers_moved _ session)
  · exact ⟨_, _, rfl, began.noted noted, noted.requests, .inr ⟨response, noted.heard⟩⟩

/-- What a task has left behind when it was carried out up to its end, or stopped before. -/
structure Executed (terms : Terms) (task : Task) (first : List Request) (after : Session σ)
    (result : Except Stop Nat) : Prop where
  going : after.outcome.state.isTerminal = false
  traced : Traced terms.network task first after.requests after.outcome result.isOk

theorem executed_download [Sink σ] (terms : Terms) (task : Task) (url : Url)
    {session : Session σ} {visited : List RetrievalState} (stands : At session visited)
    (unskipped : .skippedCompleted ∉ visited) {first : List Request}
    (more : first <+: session.requests)
    (traced : Traced terms.network task first session.requests session.outcome false) :
    terms.Executed task first (terms.beginDownload url session).1
      (terms.beginDownload url session).2 := by
  rcases beginDownload_cases terms url stands with
    ⟨after, result, ended, stood, further, ⟨stop, rfl, same⟩ | ⟨response, heard⟩⟩
  · rw [ended]
    exact ⟨stood.going, traced.fail same further⟩
  · rw [ended]
    have heard : Heard terms.network first after.requests after.outcome .get response :=
      ⟨heard.answered.widen more List.prefix_rfl, heard.success, heard.headers⟩
    refine ⟨stood.going, ?_⟩
    cases result with
    | error stop => exact .failed heard
    | ok bytes =>
        apply Traced.downloaded heard
        · rw [stood.visited]
          exact List.mem_append_right _ List.mem_cons_self
        · rw [stood.visited]
          intro mem
          rcases List.mem_append.1 mem with before | last
          · exact unskipped before
          · cases List.mem_singleton.1 last

/-- A conditional download compares the lengths first. -/
theorem executed_conditional [Sink σ] (terms : Terms) (task : Task) (url : Url)
    (kind : task.kind = .conditionalDownload) {previous : UInt64}
    (known : task.previousLength = some previous) {session : Session σ}
    (stands : At session [.pending]) (bare : session.outcome.headers = ∅) :
    let stage : Stage σ Nat := do
      if ← terms.isUnchanged url previous then pure 0 else terms.beginDownload url
    terms.Executed task session.requests (stage session).1 (stage session).2 := by
  intro stage
  rcases isUnchanged_cases terms url previous stands with
    ⟨after, stop, ended, stood, same⟩ |
    ⟨after, response, heard, ⟨ended, declared, stood⟩ | ⟨ended, stood⟩⟩
  · have stops : stage session = (after, .error stop) := bind_of_error ended _
    rw [stops]
    exact ⟨stood.going, .unanswered (same.trans bare)⟩
  · have skips : stage session = (after, .ok 0) := bind_of_ok ended _
    have visited : .skippedCompleted ∈ after.outcome.history := by
      rw [stood.visited]
      decide
    rw [skips]
    exact ⟨stood.going, .skipped kind known heard declared visited⟩
  · have goesOn : stage session = terms.beginDownload url after := bind_of_ok ended _
    rw [goesOn]
    exact executed_download terms task url stood (by decide) heard.answered.grows (.failed heard)

/-- A link that is only checked is not downloaded. -/
theorem executed_check (terms : Terms) (task : Task) (url : Url) (kind : task.kind = .checkLink)
    {session : Session σ} (stands : At session [.pending])
    (bare : session.outcome.headers = ∅) :
    let stage : Stage σ Nat := do
      edit (Outcome.advance .checkingExistence)
      let _ ← terms.check url
      pure 0
    terms.Executed task session.requests (stage session).1 (stage session).2 := by
  intro stage
  have began : At (moved .checkingExistence session) [.pending, .checkingExistence] :=
    stands.moved rfl
  rcases check_cases terms url (moved .checkingExistence session) with
    ⟨after, stop, ended, onward⟩ | ⟨after, response, ended, noted⟩
  · have stops : stage session = (after, .error stop) := bind_of_error ended _
    have same := onward.headers.trans (headers_moved _ session)
    rw [stops]
    exact ⟨(began.onward onward).going, .unanswered (same.trans bare)⟩
  · have ends : stage session = (after, .ok 0) := bind_of_ok ended _
    have stood := began.noted noted
    have unskipped : .skippedCompleted ∉ after.outcome.history := by
      rw [stood.visited]
      decide
    rw [ends]
    exact ⟨stood.going, .checked kind noted.heard unskipped⟩

/-- The deadline is set, or the clock cannot show it and the retrieval breaks down. -/
theorem setDeadline_cases (terms : Terms) (session : Session σ) :
    terms.setDeadline session = (session, .ok ()) ∨
      terms.setDeadline session = (session, .error (.halted .panicked)) ∧
        ∃ bound, terms.limits.retrievalBound = some bound ∧
          ¬ terms.network.Shows session.elapsed bound := by
  have now : clock session = (session, .ok session.elapsed) := rfl
  rw [setDeadline, bind_of_ok now]
  rcases terms.limits.retrievalBound with _ | bound
  · exact .inl rfl
  · dsimp only
    split
    · exact .inl rfl
    · next unshown => exact .inr ⟨rfl, bound, rfl, unshown⟩

/-- Carrying out a task in a session in which nothing has happened. -/
theorem executed [Sink σ] (terms : Terms) (task : Task) {session : Session σ}
    (stands : At session [.pending]) (bare : session.outcome.headers = ∅) :
    terms.Executed task session.requests (terms.execute task session).1
      (terms.execute task session).2 := by
  unfold execute
  cases link : task.link terms.network.domains with
  | error failure => exact ⟨stands.going, .unanswered bare⟩
  | ok url =>
      dsimp only
      rcases terms.setDeadline_cases session with set | ⟨broken, _⟩
      · rw [bind_of_ok set, carryOut]
        have download : terms.Executed task session.requests (terms.beginDownload url session).1
            (terms.beginDownload url session).2 :=
          executed_download terms task url stands (by decide) List.prefix_rfl (.unanswered bare)
        cases kind : task.kind with
        | unconditionalDownload => exact download
        | checkLink => exact executed_check terms task url kind stands bare
        | conditionalDownload =>
            cases known : task.previousLength with
            | none => exact download
            | some previous => exact executed_conditional terms task url kind known stands bare
      · rw [bind_of_error broken]
        exact ⟨stands.going, .unanswered bare⟩

end Terms

/-! ## The end of a retrieval -/

theorem Failure.terminalState_ne_completed (failure : Failure) :
    failure.terminalState ≠ .completed := by
  cases failure <;> rintro ⟨⟩

/-- A failure ends an outcome that has not ended; nothing but the log tells more of it. -/
theorem Outcome.fail_of_going {outcome : Outcome} (going : outcome.state.isTerminal = false)
    (failure : Failure) :
    ∃ log, outcome.fail failure =
      { outcome with
        state := failure.terminalState
        history := outcome.history ++ [failure.terminalState]
        bytesTransferred := 0
        log := log } := by
  have noted : (({ outcome with bytesTransferred := 0 } : Outcome).note
      failure.message).state.isTerminal = false := going
  rw [Outcome.fail, going, if_neg Bool.false_ne_true, advance_of_going noted]
  exact ⟨_, rfl⟩

/-- Coming to the end completes an outcome that has not ended. -/
theorem Outcome.complete_of_going {outcome : Outcome} (going : outcome.state.isTerminal = false)
    (bytes : UInt64) :
    outcome.complete bytes =
      { outcome with
        state := .completed
        history := outcome.history ++ [.completed]
        bytesTransferred := bytes } := by
  have sized : ({ outcome with bytesTransferred := bytes } : Outcome).state.isTerminal = false :=
    going
  rw [Outcome.complete, going, if_neg Bool.false_ne_true, advance_of_going sized]

namespace Session

variable {σ : Type} {session : Session σ}

/-- An operation of the sink leaves a note at most. -/
theorem onward_onSink (operation : σ → σ × Except SinkError Unit) (label : String)
    (session : Session σ) : session.Onward (session.onSink operation label) := by
  rw [onSink]
  rcases operation session.sink with ⟨sink, error | _⟩
  · exact ⟨rfl, rfl, rfl, List.prefix_rfl, rfl⟩
  · exact ⟨rfl, rfl, rfl, List.prefix_rfl, rfl⟩

variable [Sink σ]

/-- Discarding ends a retrieval that has not ended, and leaves its header fields. -/
theorem discard_of_going (going : session.outcome.state.isTerminal = false) (failure : Failure) :
    (session.discard failure).outcome.state = failure.terminalState ∧
      (session.discard failure).outcome.headers = session.outcome.headers ∧
      session.requests <+: (session.discard failure).requests := by
  have closed := (onward_onSink Sink.truncate "failed to discard partial body" session).trans
    (onward_onSink Sink.finish "failed to close sink" _)
  obtain ⟨log, ended⟩ := Outcome.fail_of_going (closed.state ▸ going) failure
  refine ⟨congrArg (·.state) ended, ?_, closed.requests⟩
  exact (congrArg (·.headers) ended).trans closed.headers

/-- How an ended retrieval came by its header fields. -/
def Ended (terms : Terms) (task : Task) (first : List Request) (session : Session σ) : Prop :=
  Traced terms.network task first session.requests session.outcome
    (session.outcome.state == .completed)

variable {terms : Terms} {task : Task} {first : List Request} {ended : Bool}

/-- A retrieval that fails before its end is traced. -/
theorem ended_discard (going : session.outcome.state.isTerminal = false)
    (traced : Traced terms.network task first session.requests session.outcome ended)
    (failure : Failure) : Ended terms task first (session.discard failure) := by
  obtain ⟨state, same, more⟩ := discard_of_going going failure
  have failed : ((session.discard failure).outcome.state == .completed) = false := by
    rw [state]
    exact beq_false_of_ne failure.terminalState_ne_completed
  rw [Ended, failed]
  exact traced.fail same more

/-- A retrieval that comes to its end is traced, whether or not its sink can be closed. -/
theorem ended_conclude (going : session.outcome.state.isTerminal = false)
    (traced : Traced terms.network task first session.requests session.outcome true)
    (bytes : Nat) : Ended terms task first (session.conclude bytes) := by
  unfold conclude
  rcases Sink.finish session.sink with ⟨sink, error | _⟩
  · let unclosed : Session σ := { session with sink := sink }
    have stood : unclosed.outcome.state.isTerminal = false := going
    exact ended_discard stood traced (.sink error.message)
  · have ended := Outcome.complete_of_going going (UInt64.ofNat bytes)
    have same : (session.outcome.complete (UInt64.ofNat bytes)).headers =
        session.outcome.headers := by rw [ended]
    dsimp only
    rw [Ended, congrArg Outcome.state ended]
    apply traced.goOn same List.prefix_rfl
    intro visited differs
    rw [congrArg Outcome.history ended]
    simp [differs]

/-- A retrieval from its start: one that came to its end is traced, and one that halted has not
ended yet. -/
theorem retrieve_cases (terms : Terms) (task : Task)
    (stands : Terms.At session [.pending]) (bare : session.outcome.headers = ∅) :
    (∃ after, session.retrieve terms task = (after, none) ∧
      Ended terms task session.requests after) ∨
    ∃ after halt, session.retrieve terms task = (after, some halt) ∧
      after.outcome.state.isTerminal = false ∧
      Traced terms.network task session.requests after.requests after.outcome false := by
  obtain ⟨going, traced⟩ := Terms.executed terms task stands bare
  unfold retrieve
  rcases ran : terms.execute task session with ⟨after, (failure | halt) | bytes⟩
  · rw [ran] at going traced
    left
    exact ⟨_, rfl, ended_discard going traced failure⟩
  · rw [ran] at going traced
    right
    exact ⟨after, halt, rfl, going, traced⟩
  · rw [ran] at going traced
    left
    exact ⟨_, rfl, ended_conclude going traced bytes⟩

/-- An interrupted retrieval is traced once it is given up. -/
theorem ended_abandon (going : session.outcome.state.isTerminal = false)
    (traced : Traced terms.network task first session.requests session.outcome ended)
    (failure : Failure) (elapsed : Span) :
    Ended terms task first (session.abandon failure elapsed) := by
  rw [abandon, going]
  exact ended_discard going traced failure

omit [Sink σ] in
theorem Ended.onward {after : Session σ} (traced : Ended terms task first session)
    (onward : session.Onward after) : Ended terms task first after := by
  rw [Ended, onward.state]
  apply Traced.goOn traced onward.headers onward.requests
  intro state _
  rw [onward.history]

end Session

namespace NodeSetup

open Session

/-- Processing adds a note to the outcome at most. -/
theorem onward_process (setup : NodeSetup) (task : Task) (session : Session AnySink) :
    session.Onward (setup.process task session).1 := by
  rw [process]
  split
  · exact ⟨rfl, rfl, rfl, List.prefix_rfl, rfl⟩
  · split
    · exact Session.Onward.refl session
    · exact Session.Onward.refl session

/-- The retrieval that a node carries out is traced, also when it is interrupted. -/
theorem ended_runInto (setup : NodeSetup) (task : Task) {session : Session AnySink}
    (stands : Terms.At session [.pending]) (bare : session.outcome.headers = ∅)
    {after : Session AnySink} {states : SubTaskStates}
    (made : setup.runInto task session = (after, .ok states)) :
    Ended (setup.terms task) task session.requests after := by
  unfold runInto at made
  rcases retrieve_cases (setup.terms task) task stands bare with
    ⟨ended, same, traced⟩ | ⟨ended, halt, same, going, traced⟩
  · rw [same] at made
    dsimp only at made
    split at made
    · have onward := onward_process setup task ended
      rw [made] at onward
      exact traced.onward onward
    · cases made
      exact traced
  · rw [same] at made
    cases halt with
    | interrupted =>
        cases made
        exact ended_abandon going traced _ _
    | stuck => cases made
    | panicked => cases made

/-- A report is made on a sink that does not open, or on what a retrieval came to. -/
theorem run_cases {setup : NodeSetup} {task : Task} {trace after : NodeTrace} {now : Instant}
    {report : Completion} (made : setup.run task trace now = (after, .ok report)) :
    (∃ files error, AnySink.create setup.sinkKind trace.files setup.folder
        (StoragePath.ofTask task) = (files, .error error) ∧
      after = { trace with files := files } ∧
      report = setup.report task
        (.failed (AnySink.plannedLocation setup.sinkKind setup.folder (StoragePath.ofTask task))
          (.sink error.message))
        (.failed task.subTasks) now) ∨
    ∃ files sink session states, AnySink.create setup.sinkKind trace.files setup.folder
        (StoragePath.ofTask task) = (files, .ok sink) ∧
      setup.runInto task (.start sink trace.requests trace.metrics) = (session, .ok states) ∧
      after = ⟨session.sink.files, session.requests, session.metrics⟩ ∧
      report = setup.report task session.outcome states now := by
  unfold run at made
  dsimp only at made
  rcases opened : AnySink.create setup.sinkKind trace.files setup.folder
    (StoragePath.ofTask task) with ⟨files, error | sink⟩
  · rw [opened] at made
    cases made
    exact .inl ⟨files, error, rfl, rfl, rfl⟩
  · rw [opened] at made
    right
    rcases ran : setup.runInto task (.start sink trace.requests trace.metrics) with
      ⟨session, halt | states⟩
    · dsimp only at made
      rw [ran] at made
      cases made
    · dsimp only at made
      rw [ran] at made
      cases made
      exact ⟨files, sink, session, states, rfl, ran, rfl, rfl⟩

/-- The outcome that a node reports on a task is traced. -/
theorem traced_run {setup : NodeSetup} {task : Task} {trace after : NodeTrace} {now : Instant}
    {report : Completion} (made : setup.run task trace now = (after, .ok report)) :
    Traced setup.network task trace.requests after.requests report.outcome
      (report.outcome.state == .completed) := by
  rcases run_cases made with
    ⟨files, error, _, rfl, rfl⟩ | ⟨files, sink, session, states, _, ran, rfl, rfl⟩
  · exact .unanswered rfl
  · have stands : Terms.At (Session.start sink trace.requests trace.metrics) [.pending] :=
      ⟨rfl, rfl⟩
    exact ended_runInto setup task stands rfl ran

end NodeSetup

end MediaHarvest
