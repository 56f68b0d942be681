import MediaHarvest.Proofs.Retrieval.Stages
import MediaHarvest.Proofs.Sink.View

/-!
# Stages without interruption

`Stage.Meets` says how a stage ends that begins in a given way: with a value or with a failure, but
never interrupted.  Of a stage that gets stuck or breaks down it says nothing else.  What is said of
a session is `Session.Stands`: which states were visited, what the sink holds, and what is known of
the requests that were sent and of the last status.  A stage that changes none of these is `Idle`.
The others are sending a request, noting a status and putting a piece into the sink.
-/

namespace MediaHarvest

variable {σ α β : Type}

namespace Stage

/-- An end of a stage: with a value, after which this is true, or with a failure, after which that
is true. -/
def Met (after : α → Session σ → Prop) (failed : Session σ → Prop) :
    Session σ × Except Stop α → Prop
  | (session, .ok value) => after value session
  | (session, .error (.failure _)) => failed session
  | (_, .error (.halted halt)) => halt ≠ .interrupted

/-- From every session that is as told, the stage ends as told. -/
def Meets (before : Session σ → Prop) (stage : Stage σ α) (after : α → Session σ → Prop)
    (failed : Session σ → Prop) : Prop :=
  ∀ session, before session → Met after failed (stage session)

section Rules

variable {before failed failed' : Session σ → Prop} {after after' : α → Session σ → Prop}

theorem Meets.weaken {stage : Stage σ α} (meets : Meets before stage after failed)
    (ends : ∀ value session, after value session → after' value session)
    (fails : ∀ session, failed session → failed' session) : Meets before stage after' failed' := by
  intro session given
  have met := meets session given
  generalize stage session = ended at met ⊢
  rcases ended with ⟨session, (failure | _) | value⟩
  · exact fails _ met
  · exact met
  · exact ends _ _ met

theorem Meets.provided {before' : Session σ → Prop} {stage : Stage σ α}
    (meets : Meets before stage after failed) (given : ∀ session, before' session → before session) :
    Meets before' stage after failed :=
  fun session told => meets session (given session told)

theorem meets_of_exists {γ : Type} {known : γ → Session σ → Prop} {stage : Stage σ α}
    (meets : ∀ c, Meets (known c) stage after failed) :
    Meets (fun session => ∃ c, known c session) stage after failed := by
  rintro session ⟨c, given⟩
  exact meets c session given

theorem meets_pure {value : α} (ends : ∀ session, before session → after value session) :
    Meets before (pure value : Stage σ α) after failed :=
  fun session given => ends session given

theorem meets_fail {failure : Failure} (fails : ∀ session, before session → failed session) :
    Meets before (fail failure : Stage σ α) after failed :=
  fun session given => fails session given

theorem meets_breakDown : Meets before (breakDown : Stage σ α) after failed :=
  fun _ _ => Halt.noConfusion

/-- What is repeated for ever fails as its rounds do. -/
theorem Meets.forever {step : α → Stage σ α} (known : α → Session σ → Prop)
    {after : β → Session σ → Prop} (meets : ∀ value, Meets (known value) (step value) known failed)
    (value : α) : Meets (known value) (forever step value) after failed := by
  intro session given
  rcases forever_cases (β := β) step
    (fun value session ended stop => known value session → Met after failed (ended, .error stop))
    (fun value session ended stop round given => by
      have met := meets value session given
      rw [round] at met
      cases stop with
      | failure failure => exact met
      | halted halt => exact met)
    (fun value session next middle ended stop round others given => by
      have met := meets value session given
      rw [round] at met
      exact others met) value session with ⟨ended, stop, same, met⟩ | stuck
  · rw [same]
    exact met given
  · rw [stuck]
    exact Halt.noConfusion

theorem meets_edit {change : Outcome → Outcome} {after : Unit → Session σ → Prop}
    (ends : ∀ session, before session →
      after () { session with outcome := change session.outcome }) :
    Meets before (edit change) after failed :=
  fun session given => ends session given

/-- One stage after the other: the first one may fail as both may. -/
theorem Meets.bind {first : Stage σ α} {next : α → Stage σ β} {middle : α → Session σ → Prop}
    {after : β → Session σ → Prop} (meets : Meets before first middle failed)
    (others : ∀ value, Meets (middle value) (next value) after failed) :
    Meets before (first >>= next) after failed := by
  intro session given
  have met := meets session given
  change Met after failed (andThen first next session)
  rw [andThen]
  generalize first session = ended at met ⊢
  rcases ended with ⟨between, (failure | _) | value⟩
  · exact met
  · exact met
  · exact others value between met

/-- Noting the time of a stage changes nothing else. -/
theorem Meets.timed {stage : Stage σ α} (meets : Meets before stage after failed) (phase : Phase)
    (ends : ∀ value (session : Session σ) times, after value session →
      after value { session with outcome := { session.outcome with times := times } })
    (fails : ∀ (session : Session σ) times, failed session →
      failed { session with outcome := { session.outcome with times := times } }) :
    Meets before (Stage.timed phase stage) after failed := by
  intro session given
  have met := meets session given
  unfold Stage.timed
  generalize stage session = ended at met ⊢
  rcases ended with ⟨between, (failure | _) | value⟩
  · exact fails _ _ met
  · exact met
  · exact ends _ _ _ met

end Rules

end Stage

/-- The body comes to its end. -/
def BodyEnd.IsComplete (ending : BodyEnd) : Prop := ∃ delay, ending = .complete delay

/-- The pieces of a body as one. -/
def Body.content (body : Body) : Bytes := body.chunks.flatMap Chunk.bytes

/-! ## Sessions before their end -/

/-- What is known of the requests that were sent and of the last status. -/
abbrev Past := List Request → Option UInt16 → Prop

/-- What a session has come to before its end, apart from the time. -/
structure Session.Stands [Sink σ] (view : SinkView σ) (visited : List RetrievalState)
    (contents : Bytes) (past : Past) (session : Session σ) : Prop where
  going : session.outcome.state.isTerminal = false
  visited : session.outcome.history = visited
  ready : view.Ready session.sink
  contents : view.contents session.sink = contents
  past : past session.requests session.outcome.httpStatus

/-- A session with any part of a content. -/
def Session.Spoilt [Sink σ] (view : SinkView σ) (visited : List RetrievalState) (past : Past)
    (session : Session σ) : Prop :=
  ∃ contents, session.Stands view visited contents past

section Stands

variable [Sink σ] {view : SinkView σ} {visited : List RetrievalState} {contents : Bytes}
  {past past' : Past} {session : Session σ}

theorem Session.Stands.weaken (stands : session.Stands view visited contents past)
    (known : ∀ requests status, past requests status → past' requests status) :
    session.Stands view visited contents past' :=
  { stands with past := known _ _ stands.past }

/-- The times of the phases are not among what is said of a session. -/
theorem Session.Stands.timed (stands : session.Stands view visited contents past)
    (times : PhaseTimes) :
    Session.Stands view visited contents past
      { session with outcome := { session.outcome with times := times } } :=
  { stands with }

end Stands

namespace Stage

variable [Sink σ]

/-- The stage changes nothing that is said of a session, however it ends. -/
def Idle (stage : Stage σ α) : Prop :=
  ∀ ⦃view : SinkView σ⦄ ⦃visited contents past⦄,
    Meets (Session.Stands view visited contents past) stage
      (fun _ => Session.Stands view visited contents past)
      (Session.Stands view visited contents past)

/-- After an idle stage a session is as before; what is left after a failure follows from that. -/
theorem Idle.meets {stage : Stage σ α} (idle : stage.Idle) {view : SinkView σ}
    {visited : List RetrievalState} {contents : Bytes} {past : Past} {failed : Session σ → Prop}
    (fails : ∀ session, session.Stands view visited contents past → failed session) :
    Meets (Session.Stands view visited contents past) stage
      (fun _ => Session.Stands view visited contents past) failed :=
  Meets.weaken (@idle view visited contents past) (fun _ _ stands => stands) fails

/-- A stage that never gives a value. -/
theorem Idle.fails {stage : Stage σ α} (idle : stage.Idle) (none : stage.Gives fun _ => False)
    {view : SinkView σ} {visited : List RetrievalState} {contents : Bytes} {past : Past}
    {after : α → Session σ → Prop} {failed : Session σ → Prop}
    (fails : ∀ session, session.Stands view visited contents past → failed session) :
    Meets (Session.Stands view visited contents past) stage after failed := by
  intro session stands
  have met := idle.meets fails session stands
  have given := none session
  generalize stage session = ended at met given ⊢
  rcases ended with ⟨after, (failure | _) | value⟩
  · exact met
  · exact met
  · exact (given value rfl).elim

/-- An idle stage may run before any other. -/
theorem Idle.before {first : Stage σ α} {next : α → Stage σ β} (idle : first.Idle)
    {view : SinkView σ} {visited : List RetrievalState} {contents : Bytes} {past : Past}
    {after : β → Session σ → Prop} {failed : Session σ → Prop}
    (fails : ∀ session, session.Stands view visited contents past → failed session)
    (others : ∀ value,
      Meets (Session.Stands view visited contents past) (next value) after failed) :
    Meets (Session.Stands view visited contents past) (first >>= next) after failed :=
  (idle.meets fails).bind others

theorem idle_pure (value : α) : (pure value : Stage σ α).Idle :=
  fun _ _ _ _ => meets_pure fun _ stands => stands

theorem idle_fail (failure : Failure) : (fail failure : Stage σ α).Idle :=
  fun _ _ _ _ => meets_fail fun _ stands => stands

theorem Idle.bind {first : Stage σ α} {next : α → Stage σ β} (idle : first.Idle)
    (others : ∀ value, (next value).Idle) : (first >>= next).Idle :=
  fun _ _ _ _ => idle.before (fun _ stands => stands) fun value =>
    (others value).meets fun _ stands => stands

theorem idle_clock : (clock : Stage σ Span).Idle :=
  fun _ _ _ _ _ stands => stands

/-- A change of the outcome that touches neither its state nor its status is idle. -/
theorem idle_edit {change : Outcome → Outcome}
    (state : ∀ outcome, (change outcome).state = outcome.state)
    (history : ∀ outcome, (change outcome).history = outcome.history)
    (status : ∀ outcome, (change outcome).httpStatus = outcome.httpStatus) :
    (edit change : Stage σ Unit).Idle := by
  intro view visited contents past
  apply meets_edit
  intro session stands
  constructor
  · exact (congrArg (·.isTerminal) (state _)).trans stands.going
  · exact (history _).trans stands.visited
  · exact stands.ready
  · exact stands.contents
  · dsimp only
    rw [status]
    exact stands.past

/-- A wait that nothing cuts off is over some time. -/
theorem idle_wait (span : Span) : (wait none span : Stage σ Unit).Idle :=
  fun _ _ _ _ _ stands => { stands with }

theorem idle_waitWithin (bound : Option (Span × Failure)) (span : Span) :
    (waitWithin none bound span : Stage σ Unit).Idle := by
  rcases bound with _ | ⟨limit, failure⟩
  · exact idle_wait span
  · unfold waitWithin
    dsimp only
    split
    · exact idle_wait span
    · apply (idle_wait limit).bind
      intro _
      exact idle_fail failure

theorem idle_waitInVain (bound : Option (Span × Failure)) :
    (waitInVain none bound : Stage σ α).Idle := by
  rcases bound with _ | ⟨limit, failure⟩
  · exact fun _ _ _ _ _ _ => Halt.noConfusion
  · apply (idle_wait limit).bind
    intro _
    exact idle_fail failure

end Stage

namespace Terms

open Stage Session

variable [Sink σ] {terms : Terms} {view : SinkView σ} {visited : List RetrievalState}
  {contents : Bytes} {past : Past} {first : List Request} {method : Method}

/-! ## Requests -/

theorem idle_resolve (uncut : terms.cutoff = none) (url : Url) (bound : Option (Span × Failure)) :
    (terms.resolve url bound : Stage σ Address).Idle := by
  rw [resolve]
  split
  · split
    · exact idle_pure _
    · rw [uncut]
      split
      · apply (idle_waitWithin _ _).bind
        intro _
        split
        · exact idle_pure _
        · exact idle_fail _
      · exact idle_waitInVain _
  · exact idle_fail _

/-- Since the first requests any number of others may have been sent. -/
def Since (first : List Request) : Past := fun requests _ => first <+: requests

/-- The last request that was sent, and what came of it. -/
def Sent (network : Network) (first : List Request) (request : Request) (exchange : Exchange) :
    Past :=
  fun requests _ => ∃ earlier, first <+: earlier ∧ requests = earlier ++ [request] ∧
    network.exchange earlier request = exchange

/-- The last request that was sent was answered with a response. -/
def Told (network : Network) (first : List Request) (method : Method) (response : Response) :
    Past :=
  fun requests status => ∃ request delay, request.method = method ∧
    Sent network first request (.answered delay response) requests status

theorem Sent.since {network : Network} {request : Request} {exchange : Exchange}
    {requests : List Request} {status status' : Option UInt16}
    (sent : Sent network first request exchange requests status) :
    Since first requests status' := by
  obtain ⟨earlier, start, rfl, _⟩ := sent
  exact start.trans (List.prefix_append earlier [request])

theorem Told.since {network : Network} {response : Response} {requests : List Request}
    {status status' : Option UInt16} (told : Told network first method response requests status) :
    Since first requests status' := by
  obtain ⟨_, _, _, sent⟩ := told
  exact sent.since

theorem meets_emit (terms : Terms) (request : Request) {failed : Session σ → Prop} :
    Meets (Stands view visited contents (Since first)) (terms.emit request)
      (fun exchange =>
        Stands view visited contents (Sent terms.network first request exchange)) failed := by
  intro session stands
  exact { stands with past := ⟨session.requests, stands.past, rfl, rfl⟩ }

/-- Sending a request fails, or ends with the response to it. -/
theorem meets_send (uncut : terms.cutoff = none) (method : Method) (url : Url) :
    Meets (Stands view visited contents (Since first)) (terms.send method url)
      (fun response => Stands view visited contents (Told terms.network first method response))
      (Stands view visited contents (Since first)) := by
  apply idle_clock.before fun _ stands => stands
  intro elapsed
  apply (idle_resolve uncut url _).before fun _ stands => stands
  intro address
  apply Idle.before
  · exact idle_edit (fun _ => rfl) (fun _ => rfl) fun _ => rfl
  · exact fun _ stands => stands
  intro _
  apply (meets_emit terms _).bind
  intro exchange
  have fails (session : Session σ)
      (stands : session.Stands view visited contents
        (Sent terms.network first ⟨method, url, terms.policy.agent⟩ exchange)) :
      session.Stands view visited contents (Since first) :=
    stands.weaken fun _ _ sent => sent.since
  unfold awaitExchange
  rw [uncut]
  cases exchange with
  | failed delay detail =>
      apply (idle_waitWithin _ delay).before fails
      intro _
      exact meets_fail fails
  | answered delay response =>
      apply (idle_waitWithin _ delay).before fails
      intro _
      apply Idle.before
      · exact idle_edit (fun _ => rfl) (fun _ => rfl) fun _ => rfl
      · exact fails
      intro _
      apply meets_pure
      exact fun _ stands => stands.weaken fun _ _ sent => ⟨_, delay, rfl, sent⟩
  | unanswered => exact (idle_waitInVain _).fails (gives_waitInVain _ _ _) fails

/-- A success was the answer to the last request, and its status was noted. -/
def Accepted (network : Network) (first : List Request) (method : Method) (response : Response) :
    Past :=
  fun requests status => Told network first method response requests status ∧
    status = some response.status ∧ response.isSuccess = true

theorem meets_noteStatus (response : Response) {failed : Session σ → Prop} :
    Meets (Stands view visited contents (Told terms.network first method response))
      (noteStatus response)
      (fun _ => Stands view visited contents fun requests status =>
        Told terms.network first method response requests status ∧
          status = some response.status) failed :=
  meets_edit fun _ stands => { stands with past := ⟨stands.past, rfl⟩ }

/-- A response that is no redirect has to be a success. -/
theorem meets_accept (response : Response) :
    Meets (Stands view visited contents (Told terms.network first method response))
      (accept response)
      (fun response => Stands view visited contents (Accepted terms.network first method response))
      (Stands view visited contents (Since first)) := by
  apply (meets_noteStatus response).bind
  intro _
  split
  · next success =>
    apply meets_pure
    exact fun _ stands => stands.weaken fun _ _ noted => ⟨noted.1, noted.2, success⟩
  · apply meets_fail
    exact fun _ stands => stands.weaken fun _ _ noted => noted.1.since

theorem meets_refuse (budget : UInt32) (response : Response)
    {after : Response → Session σ → Prop} :
    Meets (Stands view visited contents (Told terms.network first method response))
      (refuse budget response) after (Stands view visited contents (Since first)) := by
  apply (meets_noteStatus response).bind
  intro _
  apply meets_fail
  exact fun _ stands => stands.weaken fun _ _ noted => noted.1.since

theorem idle_noteTarget (target : Url) : (noteTarget target : Stage σ Unit).Idle :=
  idle_edit (fun _ => rfl) (fun _ => rfl) fun _ => rfl

/-- Following redirects fails, or ends with a success. -/
theorem meets_follow (uncut : terms.cutoff = none) (method : Method) (budget hops : UInt32)
    (url : Url) :
    Meets (Stands view visited contents (Since first)) (terms.follow method budget hops url)
      (fun response => Stands view visited contents (Accepted terms.network first method response))
      (Stands view visited contents (Since first)) := by
  induction hops using hops_induction generalizing url with
  | step hops ih =>
      rw [follow]
      apply (meets_send uncut method url).bind
      intro response
      split
      · exact meets_accept response
      · next target _ =>
        split
        · exact meets_breakDown
        · next notLast =>
          split
          · exact meets_refuse budget response
          · refine Meets.provided (?_ : Meets (Stands view visited contents (Since first)) _ _ _) ?_
            · apply (idle_noteTarget target).before fun _ stands => stands
              intro _
              exact ih notLast target
            · exact fun _ stands => stands.weaken fun _ _ told => told.since

theorem meets_fetch (uncut : terms.cutoff = none) (method : Method) (url : Url) (phase : Phase) :
    Meets (Stands view visited contents (Since first))
      (Stage.timed phase (terms.fetch method url))
      (fun response => Stands view visited contents (Accepted terms.network first method response))
      (Stands view visited contents (Since first)) :=
  (meets_follow uncut method _ _ url).timed phase (fun _ _ times stands => stands.timed times)
    fun _ times stands => stands.timed times

theorem idle_noteHeaders (response : Response) : (noteHeaders response : Stage σ Unit).Idle :=
  idle_edit (fun _ => rfl) (fun _ => rfl) fun _ => rfl

/-- Asking for the header fields alone fails, or gives the length that a success declares. -/
theorem meets_check (uncut : terms.cutoff = none) (url : Url) :
    Meets (Stands view visited contents (Since first)) (terms.check url)
      (fun _ session => ∃ response,
        session.Stands view visited contents (Accepted terms.network first .head response))
      (Stands view visited contents (Since first)) := by
  apply (meets_fetch uncut .head url .checking).bind
  intro response
  apply (idle_noteHeaders response).before
  · exact fun _ stands => stands.weaken fun _ _ accepted => accepted.1.since
  intro _
  exact meets_pure fun _ stands => ⟨response, stands⟩

/-! ## Bodies -/

/-- A piece is put behind what the sink holds. -/
theorem meets_store (piece : Bytes) {failed : Session σ → Prop} :
    Meets (Stands view visited contents past) (store piece)
      (fun _ => Stands view visited (contents ++ piece) past) failed := by
  intro session stands
  obtain ⟨next, written, ready, holds⟩ := view.write stands.ready piece
  unfold store
  rw [written]
  exact { stands with ready := ready, contents := by rw [holds, stands.contents] }

end Terms

end MediaHarvest
