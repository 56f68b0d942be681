import MediaHarvest.Retrieval.Transfer

/-!
# Stages of a retrieval

Most stages only wait, ask and take pieces of a body: they leave the state, the states that were
visited and the header fields of the outcome as they are, put further requests on record, and count
nothing else.  Such a stage is `Quiet`.  A fetch is quiet, and the response that it gives is a success
with which the network answered one of its requests.
-/

namespace MediaHarvest

/-- Between two records of requests, the second of which goes on from the first, a request was
answered with a response. -/
def Network.Answered (network : Network) (first last : List Request) (method : Method)
    (response : Response) : Prop :=
  ∃ earlier request delay, first <+: earlier ∧ earlier ++ [request] <+: last ∧
    request.method = method ∧ network.exchange earlier request = .answered delay response

namespace Network.Answered

variable {network : Network} {first first' last last' : List Request} {method : Method}
  {response : Response}

theorem widen (answered : network.Answered first' last method response)
    (before : first <+: first') (after : last <+: last') :
    network.Answered first last' method response := by
  obtain ⟨earlier, request, delay, start, record, asked, given⟩ := answered
  exact ⟨earlier, request, delay, before.trans start, record.trans after, asked, given⟩

/-- The second record goes on from the first. -/
theorem grows (answered : network.Answered first last method response) : first <+: last := by
  obtain ⟨earlier, request, _, start, record, _, _⟩ := answered
  exact (start.trans (List.prefix_append earlier [request])).trans record

end Network.Answered

variable {σ α β : Type}

/-- The counters apart from that of requests. -/
def Metrics.unasked (metrics : Metrics) : Metrics := { metrics with networkAttempts := 0 }

/-- A session that went on: nothing but further requests, and nothing new in the outcome as to its
state and its header fields. -/
structure Session.Onward (session after : Session σ) : Prop where
  state : after.outcome.state = session.outcome.state
  history : after.outcome.history = session.outcome.history
  headers : after.outcome.headers = session.outcome.headers
  requests : session.requests <+: after.requests
  /-- Nothing but requests was counted. -/
  counters : after.metrics.unasked = session.metrics.unasked

namespace Session.Onward

variable {session middle after : Session σ}

theorem refl (session : Session σ) : session.Onward session :=
  ⟨rfl, rfl, rfl, List.prefix_rfl, rfl⟩

theorem trans (first : session.Onward middle) (second : middle.Onward after) :
    session.Onward after where
  state := second.state.trans first.state
  history := second.history.trans first.history
  headers := second.headers.trans first.headers
  requests := first.requests.trans second.requests
  counters := second.counters.trans first.counters

end Session.Onward

namespace Stage

/-! ## One stage after another -/

theorem bind_of_ok {first : Stage σ α} {session middle : Session σ} {value : α}
    (ended : first session = (middle, .ok value)) (next : α → Stage σ β) :
    (first >>= next) session = next value middle := by
  change andThen first next session = next value middle
  rw [andThen, ended]

theorem bind_of_error {first : Stage σ α} {session middle : Session σ} {stop : Stop}
    (ended : first session = (middle, .error stop)) (next : α → Stage σ β) :
    (first >>= next) session = (middle, .error stop) := by
  change andThen first next session = (middle, .error stop)
  rw [andThen, ended]

/-- Two stages run one after the other, unless the first one stops. -/
theorem bind_cases (first : Stage σ α) (next : α → Stage σ β) (session : Session σ) :
    (∃ middle value, first session = (middle, .ok value) ∧
      (first >>= next) session = next value middle) ∨
    ∃ middle stop, first session = (middle, .error stop) ∧
      (first >>= next) session = (middle, .error stop) := by
  rcases ended : first session with ⟨middle, stop | value⟩
  · exact .inr ⟨middle, stop, rfl, bind_of_error ended next⟩
  · exact .inl ⟨middle, value, rfl, bind_of_ok ended next⟩

/-- The stage goes on, however it ends. -/
def Quiet (stage : Stage σ α) : Prop :=
  ∀ session : Session σ, session.Onward (stage session).1

theorem quiet_pure (value : α) : (pure value : Stage σ α).Quiet := Session.Onward.refl

theorem quiet_fail (failure : Failure) : (fail failure : Stage σ α).Quiet := Session.Onward.refl

theorem quiet_breakDown : (breakDown : Stage σ α).Quiet := Session.Onward.refl

theorem quiet_clock : (clock : Stage σ Span).Quiet := Session.Onward.refl

theorem Quiet.bind {first : Stage σ α} {next : α → Stage σ β} (quiet : first.Quiet)
    (others : ∀ value, (next value).Quiet) : (first >>= next).Quiet := by
  intro session
  have begun := quiet session
  rcases bind_cases first next session with
    ⟨middle, value, ended, goesOn⟩ | ⟨middle, stop, ended, stops⟩
  · rw [ended] at begun
    rw [goesOn]
    exact begun.trans (others value middle)
  · rw [ended] at begun
    rw [stops]
    exact begun

/-- A change of the outcome that touches neither its state nor its header fields is quiet. -/
theorem quiet_edit {change : Outcome → Outcome}
    (state : ∀ outcome, (change outcome).state = outcome.state)
    (history : ∀ outcome, (change outcome).history = outcome.history)
    (headers : ∀ outcome, (change outcome).headers = outcome.headers) :
    (edit change : Stage σ Unit).Quiet := by
  intro session
  exact ⟨state _, history _, headers _, List.prefix_rfl, rfl⟩

/-- Every value that the stage gives has a property. -/
def Gives (stage : Stage σ α) (holds : α → Prop) : Prop :=
  ∀ session value, (stage session).2 = .ok value → holds value

theorem gives_pure {holds : α → Prop} {value : α} (given : holds value) :
    (pure value : Stage σ α).Gives holds := by
  rintro session value ⟨⟩
  exact given

theorem gives_fail (failure : Failure) (holds : α → Prop) :
    (fail failure : Stage σ α).Gives holds := by
  rintro session value ⟨⟩

theorem gives_breakDown (holds : α → Prop) : (breakDown : Stage σ α).Gives holds := by
  rintro session value ⟨⟩

theorem Gives.bind {first : Stage σ α} {next : α → Stage σ β} {holds : β → Prop}
    (others : ∀ value, (next value).Gives holds) : (first >>= next).Gives holds := by
  intro session value given
  rcases bind_cases first next session with
    ⟨middle, between, ended, goesOn⟩ | ⟨middle, stop, ended, stops⟩
  · rw [goesOn] at given
    exact others between middle value given
  · rw [stops] at given
    cases given

/-! ## Waiting -/

/-- The stage lets time pass and changes nothing else, however it ends. -/
def Waits (stage : Stage σ α) : Prop :=
  ∀ session : Session σ, ∃ elapsed, (stage session).1 = { session with elapsed := elapsed }

theorem Waits.quiet {stage : Stage σ α} (waits : stage.Waits) : stage.Quiet := by
  intro session
  obtain ⟨elapsed, same⟩ := waits session
  rw [same]
  exact ⟨rfl, rfl, rfl, List.prefix_rfl, rfl⟩

theorem waits_pure (value : α) : (pure value : Stage σ α).Waits :=
  fun session => ⟨session.elapsed, rfl⟩

theorem waits_fail (failure : Failure) : (fail failure : Stage σ α).Waits :=
  fun session => ⟨session.elapsed, rfl⟩

theorem Waits.bind {first : Stage σ α} {next : α → Stage σ β} (waits : first.Waits)
    (others : ∀ value, (next value).Waits) : (first >>= next).Waits := by
  intro session
  obtain ⟨elapsed, same⟩ := waits session
  rcases bind_cases first next session with
    ⟨middle, value, ended, goesOn⟩ | ⟨middle, stop, ended, stops⟩
  · rw [ended] at same
    obtain ⟨later, still⟩ := others value middle
    refine ⟨later, ?_⟩
    rw [goesOn, still]
    exact congrArg (fun session => { session with elapsed := later }) same
  · rw [ended] at same
    rw [stops]
    exact ⟨elapsed, same⟩

theorem waits_wait (cutoff : Option Span) (span : Span) :
    (wait cutoff span : Stage σ Unit).Waits := by
  intro session
  unfold wait
  cases cutoff with
  | none => exact ⟨_, rfl⟩
  | some cut =>
      dsimp only
      split
      · exact ⟨_, rfl⟩
      · exact ⟨_, rfl⟩

theorem waits_waitWithin (cutoff : Option Span) (bound : Option (Span × Failure)) (span : Span) :
    (waitWithin cutoff bound span : Stage σ Unit).Waits := by
  rcases bound with _ | ⟨limit, failure⟩
  · exact waits_wait cutoff span
  · unfold waitWithin
    dsimp only
    split
    · exact waits_wait cutoff span
    · apply (waits_wait cutoff limit).bind
      intro _
      exact waits_fail failure

theorem waits_waitForever (cutoff : Option Span) : (waitForever cutoff : Stage σ α).Waits := by
  intro session
  cases cutoff with
  | none => exact ⟨session.elapsed, rfl⟩
  | some cut => exact ⟨cut, rfl⟩

theorem waits_waitInVain (cutoff : Option Span) (bound : Option (Span × Failure)) :
    (waitInVain cutoff bound : Stage σ α).Waits := by
  rcases bound with _ | ⟨limit, failure⟩
  · exact waits_waitForever cutoff
  · apply (waits_wait cutoff limit).bind
    intro _
    exact waits_fail failure

theorem gives_waitInVain (cutoff : Option Span) (bound : Option (Span × Failure))
    (holds : α → Prop) : (waitInVain cutoff bound : Stage σ α).Gives holds := by
  rcases bound with _ | ⟨limit, failure⟩
  · intro session value given
    cases cutoff with
    | none => cases given
    | some cut => cases given
  · exact .bind fun _ => gives_fail failure holds

/-! ## Repeating -/

/-- What is repeated for ever stops after a round or gets stuck.  So what holds of a round that stops,
and of whatever comes after a round of which it holds, holds of every stop. -/
theorem forever_cases (step : α → Stage σ α) (holds : α → Session σ → Session σ → Stop → Prop)
    (stops : ∀ value session after stop, step value session = (after, .error stop) →
      holds value session after stop)
    (goesOn : ∀ value session next middle after stop, step value session = (middle, .ok next) →
      holds next middle after stop → holds value session after stop)
    (value : α) (session : Session σ) :
    (∃ after stop, (forever step value : Stage σ β) session = (after, .error stop) ∧
      holds value session after stop) ∨
    (forever step value : Stage σ β) session = (session, .error (.halted .stuck)) := by
  rcases ended : repeating? step value session with _ | ⟨after, stop⟩
  · right
    rw [forever, ended]
  · left
    refine ⟨after, stop, by rw [forever, ended], ?_⟩
    -- on the rounds up to the stop, of which there is a finite number
    refine repeating?.partial_correctness step
      (fun value session ended => holds value session ended.1 ended.2) ?_ value session _ ended
    rintro others kept value session ⟨after, stop⟩ same
    rcases round : step value session with ⟨middle, stopped | next⟩
    · rw [round] at same
      cases same
      exact stops value session after stop round
    · rw [round] at same
      exact goesOn value session next middle after stop round (kept next middle _ same)

theorem Quiet.forever {step : α → Stage σ α} (quiet : ∀ value, (step value).Quiet) (value : α) :
    (forever step value : Stage σ β).Quiet := by
  intro session
  rcases forever_cases (β := β) step (fun _ session after _ => session.Onward after)
    (fun value session after stop ended => by
      have onward := quiet value session
      rwa [ended] at onward)
    (fun value session next middle after stop round onward => by
      have begun := quiet value session
      rw [round] at begun
      exact begun.trans onward) value session with ⟨after, stop, ended, onward⟩ | stuck
  · rw [ended]
    exact onward
  · rw [stuck]
    exact .refl session

theorem Quiet.timed {stage : Stage σ α} (quiet : stage.Quiet) (phase : Phase) :
    (timed phase stage).Quiet := by
  intro session
  exact ⟨(quiet session).state, (quiet session).history, (quiet session).headers,
    (quiet session).requests, (quiet session).counters⟩

theorem Gives.timed {stage : Stage σ α} {holds : α → Prop} (gives : stage.Gives holds)
    (phase : Phase) : (timed phase stage).Gives holds := gives

end Stage

namespace Terms

open Stage

variable {terms : Terms} {session after : Session σ} {method : Method} {response : Response}

/-! ## Requests -/

theorem waits_resolve (terms : Terms) (url : Url) (bound : Option (Span × Failure)) :
    (terms.resolve url bound : Stage σ Address).Waits := by
  rw [resolve]
  split
  · split
    · exact waits_pure _
    · split
      · apply (waits_waitWithin _ _ _).bind
        intro _
        split
        · exact waits_pure _
        · exact waits_fail _
      · exact waits_waitInVain _ _
  · exact waits_fail _

/-- A stage that goes on, and gives only a response with which one of its requests was answered. -/
def Asks (terms : Terms) (method : Method) (stage : Stage σ Response) : Prop :=
  ∀ session : Session σ, session.Onward (stage session).1 ∧
    ∀ response, (stage session).2 = .ok response →
      terms.network.Answered session.requests (stage session).1.requests method response

theorem Asks.bind {first : Stage σ α} {next : α → Stage σ Response} (quiet : first.Quiet)
    (others : ∀ value, terms.Asks method (next value)) : terms.Asks method (first >>= next) := by
  intro session
  have begun := quiet session
  rcases bind_cases first next session with
    ⟨middle, value, ended, goesOn⟩ | ⟨middle, stop, ended, stops⟩
  · rw [ended] at begun
    rw [goesOn]
    rcases others value middle with ⟨onward, answered⟩
    constructor
    · exact begun.trans onward
    · intro response given
      exact (answered response given).widen begun.requests List.prefix_rfl
  · rw [ended] at begun
    rw [stops]
    constructor
    · exact begun
    · rintro response ⟨⟩

/-- What follows a request asks, if it is quiet and gives nothing but the response to it. -/
theorem asks_emit {request : Request} {next : Exchange → Stage σ Response}
    (asks : request.method = method) (quiet : ∀ exchange, (next exchange).Quiet)
    (gives : ∀ exchange, (next exchange).Gives fun response =>
      ∃ delay, exchange = .answered delay response) :
    terms.Asks method (terms.emit request >>= next) := by
  intro session
  let asked : Session σ :=
    { session with
      requests := session.requests ++ [request]
      metrics := session.metrics.networkAttempt }
  let exchange := terms.network.exchange session.requests request
  have goesOn : (terms.emit request >>= next) session = next exchange asked := rfl
  have sent : session.Onward asked := ⟨rfl, rfl, rfl, List.prefix_append .., rfl⟩
  have onward := quiet exchange asked
  rw [goesOn]
  constructor
  · exact sent.trans onward
  · intro response given
    obtain ⟨delay, answered⟩ := gives exchange asked response given
    exact ⟨session.requests, request, delay, List.prefix_rfl, onward.requests, asks, answered⟩

theorem quiet_awaitExchange (terms : Terms) (bound : Option (Span × Failure))
    (exchange : Exchange) : (terms.awaitExchange bound exchange : Stage σ Response).Quiet := by
  cases exchange with
  | failed delay detail =>
      apply Quiet.bind (waits_waitWithin _ _ delay).quiet
      intro _
      exact quiet_fail (.network detail)
  | answered delay response =>
      apply Quiet.bind (waits_waitWithin _ _ delay).quiet
      intro _
      apply Quiet.bind
      · exact quiet_edit (fun _ => rfl) (fun _ => rfl) fun _ => rfl
      intro _
      exact quiet_pure response
  | unanswered => exact (waits_waitInVain _ _).quiet

/-- What is given is the response to the request. -/
theorem gives_awaitExchange (terms : Terms) (bound : Option (Span × Failure))
    (exchange : Exchange) : (terms.awaitExchange bound exchange : Stage σ Response).Gives
      fun response => ∃ delay, exchange = .answered delay response := by
  cases exchange with
  | failed delay detail => exact .bind fun _ => gives_fail _ _
  | answered delay response => exact .bind fun _ => .bind fun _ => gives_pure ⟨delay, rfl⟩
  | unanswered => exact gives_waitInVain _ _ _

theorem asks_send (terms : Terms) (method : Method) (url : Url) :
    terms.Asks method (terms.send method url : Stage σ Response) := by
  apply Asks.bind quiet_clock
  intro elapsed
  apply Asks.bind
  · exact (waits_resolve terms url _).quiet
  intro address
  apply Asks.bind
  · exact quiet_edit (fun _ => rfl) (fun _ => rfl) fun _ => rfl
  intro _
  exact asks_emit rfl (quiet_awaitExchange terms _) (gives_awaitExchange terms _)

theorem quiet_noteStatus (response : Response) : (noteStatus response : Stage σ Unit).Quiet :=
  quiet_edit (fun _ => rfl) (fun _ => rfl) fun _ => rfl

/-- A request is followed by stages that are quiet and give its response, or by further requests. -/
theorem Asks.redirect {first : Stage σ Response} {next : Response → Stage σ Response}
    (asks : terms.Asks method first)
    (others : ∀ response, terms.Asks method (next response) ∨
      (next response).Quiet ∧ (next response).Gives (· = response)) :
    terms.Asks method (first >>= next) := by
  intro session
  obtain ⟨begun, answered⟩ := asks session
  rcases bind_cases first next session with
    ⟨middle, between, ended, goesOn⟩ | ⟨middle, stop, ended, stops⟩
  · rw [ended] at begun answered
    rw [goesOn]
    rcases others between with further | ⟨quiet, gives⟩
    · rcases further middle with ⟨onward, later⟩
      constructor
      · exact begun.trans onward
      · intro response given
        exact (later response given).widen begun.requests List.prefix_rfl
    · constructor
      · exact begun.trans (quiet middle)
      · intro response given
        obtain rfl : response = between := gives middle response given
        exact (answered response rfl).widen List.prefix_rfl (quiet middle).requests
  · rw [ended] at begun
    rw [stops]
    constructor
    · exact begun
    · rintro response ⟨⟩

/-- A response that is no redirect is given as it is, if it is a success. -/
theorem quiet_accept (response : Response) : (accept response : Stage σ Response).Quiet := by
  apply (quiet_noteStatus response).bind
  intro _
  split
  · exact quiet_pure response
  · exact quiet_fail _

theorem gives_accept (response : Response) :
    (accept response : Stage σ Response).Gives fun given =>
      given = response ∧ response.isSuccess = true := by
  apply Gives.bind
  intro _
  split
  · next success => exact gives_pure ⟨rfl, success⟩
  · exact gives_fail _ _

theorem quiet_refuse (budget : UInt32) (response : Response) :
    (refuse budget response : Stage σ Response).Quiet := by
  apply (quiet_noteStatus response).bind
  intro _
  exact quiet_fail _

theorem gives_refuse (budget : UInt32) (response : Response) (holds : Response → Prop) :
    (refuse budget response : Stage σ Response).Gives holds := by
  apply Gives.bind
  intro _
  exact gives_fail _ _

theorem quiet_noteTarget (target : Url) : (noteTarget target : Stage σ Unit).Quiet :=
  quiet_edit (fun _ => rfl) (fun _ => rfl) fun _ => rfl

/-- Induction over the redirects that can still be counted, from the last one on. -/
theorem hops_induction {holds : UInt32 → Prop}
    (step : ∀ hops, (hops ≠ 4294967295 → holds (hops + 1)) → holds hops) (hops : UInt32) :
    holds hops := by
  apply step
  intro notLast
  have next := toNat_succ notLast
  have bound := (hops + 1).toNat_lt_size
  exact hops_induction step (hops + 1)
termination_by UInt32.size - hops.toNat
decreasing_by
  rw [next] at bound ⊢
  omega

/-- Following redirects asks as often as it takes. -/
theorem asks_follow (terms : Terms) (method : Method) (budget hops : UInt32) (url : Url) :
    terms.Asks method (terms.follow method budget hops url : Stage σ Response) := by
  induction hops using hops_induction generalizing url with
  | step hops ih =>
      rw [follow]
      apply (asks_send terms method url).redirect
      intro response
      split
      · right
        exact ⟨quiet_accept response, fun session given same =>
          (gives_accept response session given same).1⟩
      · next target _ =>
        split
        · right
          exact ⟨quiet_breakDown, gives_breakDown _⟩
        · next notLast =>
          split
          · right
            exact ⟨quiet_refuse budget response, gives_refuse budget response _⟩
          · left
            apply Asks.bind (quiet_noteTarget target)
            intro _
            exact ih notLast target

/-- What comes of following redirects is a success. -/
theorem gives_follow (terms : Terms) (method : Method) (budget hops : UInt32) (url : Url) :
    (terms.follow method budget hops url : Stage σ Response).Gives (·.isSuccess) := by
  induction hops using hops_induction generalizing url with
  | step hops ih =>
      rw [follow]
      apply Gives.bind
      intro response
      split
      · intro session given same
        rcases gives_accept response session given same with ⟨rfl, success⟩
        exact success
      · next target _ =>
        split
        · exact gives_breakDown _
        · next notLast =>
          split
          · exact gives_refuse budget response _
          · apply Gives.bind
            intro _
            exact ih notLast target

theorem Asks.timed {stage : Stage σ Response} (asks : terms.Asks method stage) (phase : Phase) :
    terms.Asks method (timed phase stage) := by
  intro session
  rcases asks session with ⟨onward, answered⟩
  constructor
  · exact ⟨onward.state, onward.history, onward.headers, onward.requests, onward.counters⟩
  · exact answered

theorem asks_fetch (terms : Terms) (method : Method) (url : Url) :
    terms.Asks method (terms.fetch method url : Stage σ Response) :=
  asks_follow terms method _ _ url

theorem gives_fetch (terms : Terms) (method : Method) (url : Url) :
    (terms.fetch method url : Stage σ Response).Gives (·.isSuccess) :=
  gives_follow terms method _ _ url

/-! ## Bodies -/

/-- Waiting for a piece is quiet, wait by wait. -/
theorem quiet_awaitPiece (terms : Terms) (started : Span) (received : Nat) (left : Span) :
    (terms.awaitPiece started received left : Stage σ Unit).Quiet := by
  intro session
  fun_induction awaitPiece terms started received left session with
  | case1 _ session => exact Session.Onward.refl session
  | case2 left session => exact (waits_wait terms.cutoff left).quiet session
  | case3 _ session slice _ _ after stop waited =>
      have onward := (waits_wait terms.cutoff slice).quiet session
      rw [waited] at onward
      exact onward
  | case4 _ session slice _ _ after waited failure slow =>
      have onward := (waits_wait terms.cutoff slice).quiet session
      rw [waited] at onward
      exact onward
  | case5 _ session slice _ _ after waited _ _ ih =>
      have onward := (waits_wait terms.cutoff slice).quiet session
      rw [waited] at onward
      exact onward.trans ih

theorem quiet_store [Sink σ] (piece : Bytes) : (store piece : Stage σ Unit).Quiet := by
  intro session
  exact ⟨rfl, rfl, rfl, List.prefix_rfl, rfl⟩

theorem quiet_checkSize (terms : Terms) (received : Nat) :
    (terms.checkSize received : Stage σ Unit).Quiet := by
  unfold checkSize
  split
  · split
    · exact quiet_fail _
    · exact quiet_pure ()
  · exact quiet_pure ()

theorem quiet_checkSpeed (terms : Terms) (started : Span) (received : Nat) :
    (terms.checkSpeed started received : Stage σ Unit).Quiet := by
  apply quiet_clock.bind
  intro now
  split
  · exact quiet_pure ()
  · exact quiet_fail _

theorem quiet_takePiece [Sink σ] (terms : Terms) (started : Span) (received : Nat)
    (chunk : Chunk) : (terms.takePiece started received chunk : Stage σ Nat).Quiet := by
  apply (quiet_awaitPiece terms started received _).bind
  intro _
  apply (quiet_checkSize terms _).bind
  intro _
  apply (quiet_store chunk.bytes).bind
  intro _
  apply (quiet_checkSpeed terms started _).bind
  intro _
  exact quiet_pure _

theorem quiet_awaitNothing (terms : Terms) (started : Span) (received : Nat) :
    (terms.awaitNothing started received : Stage σ Unit).Quiet := by
  apply quiet_clock.bind
  intro now
  split
  · apply (waits_wait _ _).quiet.bind
    intro _
    exact quiet_checkSpeed terms started received
  · exact quiet_fail _

theorem quiet_takeEnd [Sink σ] (terms : Terms) (started : Span) (received : Nat)
    (ending : BodyEnd) : (terms.takeEnd started received ending : Stage σ Nat).Quiet := by
  cases ending with
  | complete delay =>
      apply (quiet_awaitPiece terms started received delay).bind
      intro _
      exact quiet_pure received
  | broken delay detail =>
      apply (quiet_awaitPiece terms started received delay).bind
      intro _
      exact quiet_fail _
  | silent => exact .forever (fun _ => quiet_awaitNothing terms started received) _
  | endless stream =>
      apply Quiet.forever
      rintro ⟨index, received⟩
      apply (quiet_takePiece terms started received _).bind
      intro _
      exact quiet_pure _

/-- Taking a body is quiet, piece by piece. -/
theorem quiet_takeBody [Sink σ] (terms : Terms) (started : Span) (ending : BodyEnd)
    (chunks : List Chunk) (received : Nat) :
    (terms.takeBody started ending chunks received : Stage σ Nat).Quiet := by
  induction chunks generalizing received with
  | nil => exact quiet_takeEnd terms started received ending
  | cons chunk rest ih =>
      apply (quiet_takePiece terms started received chunk).bind
      intro _
      exact ih _

end Terms

end MediaHarvest
