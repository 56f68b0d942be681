import MediaHarvest.Proofs.Retrieval.Run
import MediaHarvest.Proofs.Retrieval.Throughput

/-!
# Retrievals that return

A network may leave a look-up or a request without an answer and a body without an end, and then only
a limit puts an end to the retrieval.  `Terms.LetEnd` says that every wait has one, and that the
retrieval does not break down.  `Stage.Returns` says of a stage that it does not get stuck, breaks down
for one reason only, and what is true after it.  What is repeated for ever returns if some measure
falls with every round: the time that is left, or the bytes that may still come.
-/

namespace MediaHarvest

variable {σ α β : Type}

namespace Stage

/-- An end of a stage, be it interrupted or broken down; if it gives a value, this is true after it.
-/
def Returned (breaks : Prop) (after : α → Session σ → Prop) : Session σ × Except Stop α → Prop
  | (ended, .ok value) => after value ended
  | (_, .error (.failure _)) => True
  | (_, .error (.halted halt)) => halt = .interrupted ∨ halt = .panicked ∧ breaks

/-- From a session the stage comes to an end. -/
def Returns (breaks : Prop) (stage : Stage σ α) (session : Session σ)
    (after : α → Session σ → Prop) : Prop :=
  Returned breaks after (stage session)

variable {breaks : Prop}

section Rules

variable {session : Session σ} {after : α → Session σ → Prop}

theorem returns_fail (failure : Failure) :
    (fail failure : Stage σ α).Returns breaks session after := trivial

theorem returns_edit (change : Outcome → Outcome) :
    (edit change).Returns breaks session fun _ _ => True := trivial

theorem returns_clock : (clock : Stage σ Span).Returns breaks session fun now last =>
    now = session.elapsed ∧ last = session := ⟨rfl, rfl⟩

theorem Returned.mono {after' : α → Session σ → Prop} {ran : Session σ × Except Stop α}
    (returned : Returned breaks after ran)
    (ends : ∀ value ended, after value ended → after' value ended) : Returned breaks after' ran := by
  rcases ran with ⟨ended, (failure | halt) | value⟩
  · exact returned
  · exact returned
  · exact ends value ended returned

theorem Returns.mono {stage : Stage σ α} {after' : α → Session σ → Prop}
    (returns : stage.Returns breaks session after)
    (ends : ∀ value ended, after value ended → after' value ended) :
    stage.Returns breaks session after' :=
  Returned.mono returns ends

/-- What is known of a stage by itself is true after it as well. -/
theorem Returns.also {stage : Stage σ α} {known : α → Session σ → Prop}
    (returns : stage.Returns breaks session after)
    (gives : ∀ value ended, stage session = (ended, .ok value) → known value ended) :
    stage.Returns breaks session fun value ended => after value ended ∧ known value ended := by
  unfold Returns at returns ⊢
  rcases ran : stage session with ⟨ended, (failure | halt) | value⟩
  · rw [ran] at returns
    exact returns
  · rw [ran] at returns
    exact returns
  · rw [ran] at returns
    exact ⟨returns, gives value ended ran⟩

theorem Returns.bind {first : Stage σ α} {next : α → Stage σ β} {after' : β → Session σ → Prop}
    (returns : first.Returns breaks session after)
    (others : ∀ value middle, after value middle → (next value).Returns breaks middle after') :
    (first >>= next).Returns breaks session after' := by
  unfold Returns at returns
  rcases bind_cases first next session with
    ⟨middle, value, ended, goesOn⟩ | ⟨middle, stop, ended, stops⟩
  · rw [ended] at returns
    rw [Returns, goesOn]
    exact others value middle returns
  · rw [ended] at returns
    rw [Returns, stops]
    cases stop with
    | failure failure => trivial
    | halted halt => exact returns

theorem Returns.timed {stage : Stage σ α} (returns : stage.Returns breaks session fun _ _ => True)
    (phase : Phase) : (timed phase stage).Returns breaks session fun _ _ => True := by
  unfold Returns at returns ⊢
  unfold Stage.timed
  rcases ran : stage session with ⟨ended, (failure | halt) | value⟩
  · trivial
  · rw [ran] at returns
    exact returns
  · trivial

/-- What is repeated for ever returns if its rounds do, and bring it nearer to its end. -/
theorem Returns.forever {step : α → Stage σ α} (holds : α → Session σ → Prop)
    (left : α → Session σ → Nat)
    (rounds : ∀ value session, holds value session →
      (step value).Returns breaks session fun next middle =>
        holds next middle ∧ left next middle < left value session)
    {value : α} {after : β → Session σ → Prop} (begins : holds value session) :
    (forever step value).Returns breaks session after := by
  have stops : ∃ ended stop, repeating? step value session = some (ended, stop) ∧
      Returned breaks after (ended, .error stop) := by
    induction less : left value session using Nat.strongRecOn generalizing value session with
    | ind bound ih =>
        have round := rounds value session begins
        rw [repeating?]
        unfold Returns at round
        rcases ran : step value session with ⟨middle, (failure | halt) | next⟩
        · exact ⟨middle, _, rfl, trivial⟩
        · rw [ran] at round
          exact ⟨middle, _, rfl, round⟩
        · rw [ran] at round
          rw [← less] at ih
          exact ih _ round.2 round.1 rfl
  rcases stops with ⟨ended, stop, same, returned⟩
  rw [Returns, Stage.forever, same]
  exact returned

end Rules

/-! ## Waiting -/

variable {session : Session σ}

theorem returns_wait (cutoff : Option Span) (span : Span) :
    (wait cutoff span).Returns breaks session fun _ after =>
      after.elapsed.nanos = session.elapsed.nanos + span.nanos ∧
        ∀ cut, cutoff = some cut → after.elapsed.nanos ≤ cut.nanos := by
  unfold Returns wait
  cases cutoff with
  | none => exact ⟨rfl, fun cut same => by cases same⟩
  | some cut =>
      dsimp only
      by_cases late : cut.nanos < session.elapsed.nanos + span.nanos
      · rw [if_pos late]
        exact .inl rfl
      · rw [if_neg late]
        refine ⟨rfl, ?_⟩
        rintro _ ⟨⟩
        exact Nat.le_of_not_lt late

theorem returns_waitWithin (cutoff : Option Span) (bound : Option (Span × Failure)) (span : Span) :
    (waitWithin cutoff bound span).Returns breaks session fun _ _ => True := by
  rcases bound with _ | ⟨limit, failure⟩
  · exact (returns_wait cutoff span).mono fun _ _ _ => trivial
  · rw [waitWithin]
    split
    · exact (returns_wait cutoff span).mono fun _ _ _ => trivial
    · exact (returns_wait cutoff limit).bind fun _ _ _ => returns_fail failure

/-- Waiting in vain comes to an end if it has a bound or is cut off. -/
theorem returns_waitInVain {cutoff : Option Span} {bound : Option (Span × Failure)}
    (ends : cutoff.isSome = true ∨ bound.isSome = true) {after : α → Session σ → Prop} :
    (waitInVain cutoff bound : Stage σ α).Returns breaks session after := by
  rcases bound with _ | ⟨limit, failure⟩
  · rcases cutoff with _ | cut
    · rcases ends with never | never
      · cases never
      · cases never
    · exact .inl rfl
  · exact (returns_wait cutoff limit).bind fun _ _ _ => returns_fail failure

end Stage

/-! ## Limits that put an end to a retrieval -/

namespace Terms

open Stage

/-- The whole retrieval has an end that its time or a cutoff sets. -/
def IsTimed (terms : Terms) : Prop :=
  terms.cutoff.isSome = true ∨ terms.limits.retrievalBound.isSome = true

/-- The limits put an end to a body that has none. -/
def EndBody (terms : Terms) : BodyEnd → Prop
  | .complete _ | .broken _ _ => True
  | .silent => terms.IsTimed ∨ terms.limits.floor.isSome = true
  | .endless _ => terms.IsTimed ∨ terms.limits.sizeBound.isSome = true

/-- Every look-up and every request comes to an end by itself or by the limits. -/
structure EndRequests (terms : Terms) : Prop where
  lookups : terms.IsTimed ∨ terms.limits.connectionBound.isSome = true ∨
    ∀ name, terms.network.lookup name ≠ .unanswered
  requests : terms.IsTimed ∨ terms.limits.connectionBound.isSome = true ∨
    ∀ earlier request, terms.network.exchange earlier request ≠ .unanswered

/-- So does every body. -/
structure EndWaits (terms : Terms) : Prop extends terms.EndRequests where
  bodies : ∀ earlier request delay response, request.method = .get →
    terms.network.exchange earlier request = .answered delay response →
    terms.EndBody response.body.ending

/-- The redirects that are followed and the time of the retrieval can be counted. -/
structure Countable (terms : Terms) : Prop where
  redirects : terms.limits.redirectBudget terms.policy.redirectCeiling ≠ 4294967295
  deadline : ∀ bound, terms.limits.retrievalBound = some bound → terms.network.Shows .zero bound

/-- Every wait has an end, and everything that is counted can be. -/
structure LetEnd (terms : Terms) : Prop extends terms.EndWaits, terms.Countable

/-- A network that answers everything, and with bodies that are complete, lets every wait end. -/
theorem endWaits_of_answers {terms : Terms}
    (found : ∀ name, terms.network.lookup name ≠ .unanswered)
    (answers : ∀ earlier request, ∃ delay response rest,
      terms.network.exchange earlier request = .answered delay response ∧
        response.body.ending = .complete rest) : terms.EndWaits where
  lookups := .inr (.inr found)
  requests := .inr (.inr fun earlier request unanswered => by
    rcases answers earlier request with ⟨_, _, _, answered, _⟩
    rw [unanswered] at answered
    cases answered)
  bodies := by
    intro earlier request delay response _ answered
    rcases answers earlier request with ⟨_, _, rest, same, complete⟩
    rw [answered] at same
    cases same
    rw [complete]
    trivial

variable {terms : Terms} {session : Session σ}

/-- Waiting for an answer is bounded if the retrieval or connecting is. -/
theorem bounded_requestBound
    (bounded : terms.IsTimed ∨ terms.limits.connectionBound.isSome = true) (now : Span) :
    terms.cutoff.isSome = true ∨ (terms.requestBound now).isSome = true := by
  rcases bounded with (cut | timed) | connect
  · exact .inl cut
  · right
    rcases Option.isSome_iff_exists.1 timed with ⟨bound, given⟩
    rw [requestBound, remaining, given]
    cases terms.limits.connectionBound with
    | none => rfl
    | some limit => rfl
  · right
    rcases Option.isSome_iff_exists.1 connect with ⟨limit, given⟩
    rw [requestBound, given]
    cases terms.remaining now with
    | none => rfl
    | some left => rfl

/-! ## Requests -/

theorem returns_resolve (ends : terms.EndRequests) (url : Url) (now : Span) :
    (terms.resolve url (terms.requestBound now)).Returns breaks session fun _ _ => True := by
  rw [resolve]
  split
  · split
    · trivial
    · next name _ _ =>
      split
      · next delay result _ =>
        apply (returns_waitWithin _ _ delay).bind
        intro _ _ _
        cases result with
        | ok address => trivial
        | error reason => trivial
      · next unanswered =>
        apply returns_waitInVain
        apply bounded_requestBound
        rcases ends.lookups with timed | connect | answers
        · exact .inl timed
        · exact .inr connect
        · exact absurd unanswered (answers _)
  · trivial

theorem returns_send (ends : terms.EndRequests) (method : Method) (url : Url) :
    (terms.send method url).Returns breaks session fun _ _ => True := by
  apply returns_clock.bind
  intro now middle _
  apply (returns_resolve ends url now).bind
  intro address resolved _
  apply (returns_edit _).bind
  intro _ noted _
  have sent : (terms.emit ⟨method, url, terms.policy.agent⟩).Returns breaks noted fun exchange _ =>
      exchange = terms.network.exchange noted.requests ⟨method, url, terms.policy.agent⟩ := rfl
  apply sent.bind
  rintro _ asked rfl
  rw [awaitExchange.eq_def]
  split
  · next delay detail _ => exact (returns_waitWithin _ _ delay).bind fun _ _ _ => trivial
  · next delay response _ => exact (returns_waitWithin _ _ delay).bind fun _ _ _ => trivial
  · next unanswered =>
    apply returns_waitInVain
    apply bounded_requestBound
    rcases ends.requests with timed | connect | answers
    · exact .inl timed
    · exact .inr connect
    · exact absurd unanswered (answers _ _)

/-- As long as the budget is below the last word, all redirects can be counted. -/
theorem returns_follow (ends : terms.EndRequests) (method : Method) {budget hops : UInt32}
    (greatest : budget = 4294967295 → breaks) (within : hops ≤ budget) (url : Url) :
    (terms.follow method budget hops url).Returns breaks session fun _ _ => True := by
  induction hops using hops_induction generalizing url session with
  | step hops ih =>
      rw [follow]
      apply (returns_send ends method url).bind
      intro response middle _
      split
      · rw [accept]
        split
        · trivial
        · trivial
      · next target _ =>
        split
        · next last =>
          subst last
          have least : 4294967295 ≤ budget.toNat := within
          have most := budget.toNat_lt
          have same : budget.toNat = 4294967295 := by omega
          exact .inr ⟨rfl, greatest (UInt32.toNat_inj.1 same)⟩
        · next notLast =>
          split
          · trivial
          · next within =>
            apply (returns_edit _).bind
            intro _ _ _
            exact ih notLast (UInt32.not_lt.1 within) target

/-- A response that a fetch gives is one with which the network answered. -/
theorem returns_fetch (ends : terms.EndRequests) (method : Method) (url : Url) (phase : Phase) :
    (Stage.timed phase (terms.fetch method url)).Returns (¬ terms.Countable) session fun response _ =>
      ∃ earlier request delay, request.method = method ∧
        terms.network.exchange earlier request = .answered delay response := by
  have returns : (terms.fetch method url).Returns (¬ terms.Countable) session fun _ _ => True :=
    returns_follow ends method (fun same countable => countable.redirects same) UInt32.zero_le url
  apply ((returns.timed phase).also _).mono fun _ _ known => known.2
  intro response ended ran
  have asked := ((asks_fetch terms method url).timed phase session).2 response (by rw [ran])
  rcases asked with ⟨earlier, request, delay, _, _, same, answered⟩
  exact ⟨earlier, request, delay, same, answered⟩

/-! ## Bodies -/

/-- After a span of waiting for a body: the retrieval was neither cut off nor out of time. -/
structure Passed (terms : Terms) (span : Span) (session after : Session σ) : Prop where
  elapsed : after.elapsed.nanos = session.elapsed.nanos + span.nanos
  uncut : ∀ cut, terms.cutoff = some cut → after.elapsed.nanos ≤ cut.nanos
  inTime : ∀ bound, terms.limits.retrievalBound = some bound →
    after.elapsed.nanos ≤ bound.nanos

/-- A retrieval whose end is set has only so much time. -/
theorem IsTimed.last (timed : terms.IsTimed) :
    ∃ last, ∀ span (session after : Session σ), terms.Passed span session after →
      after.elapsed.nanos ≤ last := by
  rcases timed with cut | bound
  · rcases Option.isSome_iff_exists.1 cut with ⟨cut, given⟩
    exact ⟨cut.nanos, fun _ _ _ passed => passed.uncut cut given⟩
  · rcases Option.isSome_iff_exists.1 bound with ⟨bound, given⟩
    exact ⟨bound.nanos, fun _ _ _ passed => passed.inTime bound given⟩

/-- No wait is longer than what is left of the time for the retrieval. -/
theorem bodyWait_le {now slice : Span} (given : terms.bodyWait now = .ok slice) :
    ∀ bound, terms.limits.retrievalBound = some bound →
      now.nanos + slice.nanos ≤ bound.nanos := by
  intro bound set
  rw [bodyWait, remaining, set] at given
  dsimp only [Option.map_some] at given
  split at given
  · cases given
  · next some =>
    cases given
    have left : bound.nanos - now.nanos ≠ 0 := fun zero => some (congrArg Span.mk zero)
    dsimp only
    omega

/-- A wait of a slice at most, after which the retrieval is in time. -/
theorem returns_slice {slice span : Span} (given : terms.bodyWait session.elapsed = .ok slice)
    (short : span.nanos ≤ slice.nanos) :
    (wait terms.cutoff span).Returns breaks session fun _ after =>
      terms.Passed span session after := by
  apply (returns_wait terms.cutoff span).mono
  rintro _ after ⟨elapsed, uncut⟩
  refine ⟨elapsed, uncut, fun bound set => ?_⟩
  have most := bodyWait_le given bound set
  omega

theorem returns_awaitPiece (terms : Terms) (started : Span) (received : Nat) (left : Span)
    (session : Session σ) :
    (terms.awaitPiece started received left).Returns breaks session fun _ after =>
      terms.Passed left session after := by
  unfold Returns
  fun_induction awaitPiece terms started received left session with
  | case1 _ session => trivial
  | case2 left session slice given short => exact returns_slice given (Nat.le_of_lt short)
  | case3 _ session slice given _ after stop waited =>
      have returned : (wait terms.cutoff slice).Returns breaks session _ :=
        returns_slice given (Nat.le_refl _)
      rw [Returns, waited] at returned
      cases stop with
      | failure failure => trivial
      | halted halt => exact returned
  | case4 => trivial
  | case5 left session slice given long after waited passes positive ih =>
      have returned : (wait terms.cutoff slice).Returns breaks session _ :=
        returns_slice given (Nat.le_refl _)
      rw [Returns, waited] at returned
      apply ih.mono
      rintro _ ended ⟨elapsed, uncut, inTime⟩
      refine ⟨?_, uncut, inTime⟩
      have first := returned.elapsed
      dsimp only at elapsed
      omega

/-- Waiting while nothing comes takes time, and the transfer is fast enough after it. -/
theorem returns_awaitNothing (terms : Terms) (started : Span) (received : Nat)
    (session : Session σ) :
    (terms.awaitNothing started received).Returns breaks session fun _ after =>
      ∃ slice : Span, 0 < slice.nanos ∧ terms.Passed slice session after ∧
        terms.checkThroughput ⟨after.elapsed.nanos - started.nanos⟩ received = .ok () := by
  have now : (clock : Stage σ Span).Returns breaks session fun now after =>
      now = session.elapsed ∧ after = session := ⟨rfl, rfl⟩
  apply now.bind
  rintro _ _ ⟨rfl, rfl⟩
  split
  · next slice given =>
    apply (returns_slice given (Nat.le_refl _)).bind
    intro _ after passed
    have looked : (clock : Stage σ Span).Returns breaks after fun now ended =>
        now = after.elapsed ∧ ended = after := ⟨rfl, rfl⟩
    apply looked.bind
    rintro _ _ ⟨rfl, rfl⟩
    split
    · next fast => exact ⟨slice, bodyWait_pos given, passed, fast⟩
    · trivial
  · trivial

/-- A piece that was taken is within the limit of the size. -/
theorem returns_takePiece [Sink σ] (terms : Terms) (started : Span) (received : Nat)
    (chunk : Chunk) (session : Session σ) :
    (terms.takePiece started received chunk).Returns breaks session fun size after =>
      size = received + chunk.bytes.length ∧ terms.Passed chunk.delay session after ∧
        ∀ limit, terms.limits.sizeBound = some limit → size ≤ limit.toNat := by
  apply (returns_awaitPiece terms started received chunk.delay session).bind
  intro _ after passed
  have sized : (terms.checkSize (received + chunk.bytes.length)).Returns breaks after fun _ ended =>
      ended = after ∧ ∀ limit, terms.limits.sizeBound = some limit →
        received + chunk.bytes.length ≤ limit.toNat := by
    rw [checkSize]
    split
    · next limit set =>
      split
      · trivial
      · next within =>
        refine ⟨rfl, ?_⟩
        rintro _ same
        rw [set] at same
        cases same
        exact Nat.le_of_not_lt within
    · next unset =>
      refine ⟨rfl, ?_⟩
      rintro _ same
      rw [unset] at same
      cases same
  apply sized.bind
  rintro _ middle ⟨rfl, within⟩
  have stored : (store chunk.bytes).Returns breaks middle fun _ ended =>
      ended.elapsed = middle.elapsed := by
    rw [Returns, store]
    rcases Sink.write chunk.bytes middle.sink with ⟨sink, error | _⟩
    · trivial
    · exact rfl
  apply stored.bind
  intro _ ended same
  have fast : (terms.checkSpeed started (received + chunk.bytes.length)).Returns breaks ended
      fun _ last => last.elapsed = ended.elapsed := by
    apply returns_clock.bind
    rintro _ _ ⟨rfl, rfl⟩
    split
    · exact rfl
    · trivial
  apply fast.bind
  intro _ last still
  have elapsed := still.trans same
  refine ⟨rfl, ⟨?_, ?_, ?_⟩, within⟩
  · rw [elapsed]
    exact passed.elapsed
  · rw [elapsed]
    exact passed.uncut
  · rw [elapsed]
    exact passed.inTime

/-- After so long a time every transfer is below the floor. -/
theorem lt_of_fast {floor : UInt64} (set : terms.limits.floor = some floor) {elapsed : Span}
    {received : Nat} (fast : terms.checkThroughput elapsed received = .ok ()) :
    elapsed.nanos < terms.policy.grace.nanos + 18446744073709551616 * 1000000000 := by
  refine Nat.lt_of_not_le fun late => ?_
  have graced : ¬ elapsed.nanos < terms.policy.grace.nanos := by omega
  have positive : 0 < floor := by
    rw [Limits.floor, Limits.positive] at set
    split at set
    · cases set
    · next some =>
      cases set
      exact UInt64.pos_iff_ne_zero.2 some
  -- by then more milliseconds have passed than a thousand for every byte that can be counted
  have none : (ByteSize.mk (UInt64.ofNat received)).rate elapsed < 1 := by
    rw [ByteSize.rate_lt_iff, Nat.one_mul]
    have bytes := (UInt64.ofNat received).toNat_lt
    have span : elapsed.millis ≤ elapsed.rated := Nat.le_max_left ..
    dsimp only [Span.millis] at span ⊢
    omega
  have slow : (ByteSize.mk (UInt64.ofNat received)).rateOver elapsed < floor := by
    rw [UInt64.lt_iff_toNat_lt] at positive ⊢
    rw [ByteSize.toNat_rateOver, Nat.lt_one_iff.1 none]
    exact positive
  rw [checkThroughput, set] at fast
  dsimp only at fast
  rw [if_neg graced, if_pos slow] at fast
  cases fast

/-- Silence lasts only as long as the limits let it. -/
theorem returns_silent (terms : Terms) (started : Span) (received : Nat)
    (ends : terms.EndBody .silent) (session : Session σ) {after : Nat → Session σ → Prop} :
    (forever (fun _ => terms.awaitNothing started received) ()).Returns breaks session after := by
  have last : ∃ last, ∀ (slice : Span) (session after : Session σ),
      terms.Passed slice session after →
      terms.checkThroughput ⟨after.elapsed.nanos - started.nanos⟩ received = .ok () →
      after.elapsed.nanos ≤ last := by
    rcases ends with timed | floored
    · rcases timed.last with ⟨last, passes⟩
      exact ⟨last, fun slice session after passed _ => passes slice session after passed⟩
    · rcases Option.isSome_iff_exists.1 floored with ⟨floor, set⟩
      refine ⟨started.nanos + (terms.policy.grace.nanos + 18446744073709551616 * 1000000000), ?_⟩
      intro slice session after _ fast
      have bound := lt_of_fast set fast
      dsimp only at bound
      omega
  rcases last with ⟨last, most⟩
  apply Returns.forever (fun _ _ => True) (fun _ session => last - session.elapsed.nanos)
  · intro _ session _
    apply (returns_awaitNothing terms started received session).mono
    rintro _ after ⟨slice, some, passed, fast⟩
    have bound := most slice session after passed fast
    have elapsed := passed.elapsed
    exact ⟨trivial, by omega⟩
  · trivial

/-- Pieces go on coming only as long as the limits let them. -/
theorem returns_endless [Sink σ] (terms : Terms) (started : Span) (received : Nat)
    {stream : Stream} (ends : terms.EndBody (.endless stream)) (session : Session σ)
    {after : Nat → Session σ → Prop} :
    (terms.takeEnd started received (.endless stream)).Returns breaks session after := by
  rw [takeEnd]
  rcases ends with timed | limited
  · rcases timed.last with ⟨last, most⟩
    apply Returns.forever (fun _ _ => True) (fun _ session => last - session.elapsed.nanos)
    · rintro ⟨index, received⟩ session _
      apply (returns_takePiece terms started received (stream.piece index) session).bind
      rintro _ after ⟨_, passed, _⟩
      have bound := most _ session after passed
      have elapsed := passed.elapsed
      have passes := stream.passes index
      exact ⟨trivial, by omega⟩
    · trivial
  · rcases Option.isSome_iff_exists.1 limited with ⟨limit, set⟩
    apply Returns.forever (fun _ _ => True) (fun progress _ => limit.toNat + 1 - progress.2)
    · rintro ⟨index, received⟩ session _
      apply (returns_takePiece terms started received (stream.piece index) session).bind
      rintro _ after ⟨rfl, _, within⟩
      have bound := within limit set
      have brings := List.length_pos_iff.2 (stream.brings index)
      refine ⟨trivial, ?_⟩
      dsimp only
      omega
    · trivial

theorem returns_takeEnd [Sink σ] (terms : Terms) (started : Span) (received : Nat)
    {ending : BodyEnd} (ends : terms.EndBody ending) (session : Session σ) :
    (terms.takeEnd started received ending).Returns breaks session fun _ _ => True := by
  cases ending with
  | complete delay =>
      exact (returns_awaitPiece terms started received delay session).bind fun _ _ _ => trivial
  | broken delay detail =>
      exact (returns_awaitPiece terms started received delay session).bind fun _ _ _ => trivial
  | silent => exact returns_silent terms started received ends session
  | endless stream => exact returns_endless terms started received ends session

theorem returns_takeBody [Sink σ] (terms : Terms) (started : Span) {ending : BodyEnd}
    (ends : terms.EndBody ending) (chunks : List Chunk) (received : Nat) (session : Session σ) :
    (terms.takeBody started ending chunks received).Returns breaks session fun _ _ => True := by
  induction chunks generalizing received session with
  | nil => exact returns_takeEnd terms started received ends session
  | cons chunk rest ih =>
      apply (returns_takePiece terms started received chunk session).bind
      intro size after _
      exact ih size after

theorem returns_takeResponse [Sink σ] (terms : Terms) {response : Response}
    (ends : terms.EndBody response.body.ending) (session : Session σ) :
    (terms.takeResponse response).Returns breaks session fun _ _ => True := by
  have taking (session : Session σ) : Returns breaks (do
      let started ← clock
      Stage.timed .retrieval (terms.takeBody started response.body.ending response.body.chunks 0))
      session fun _ _ => True := by
    apply returns_clock.bind
    intro started after _
    exact (returns_takeBody terms started ends _ 0 after).timed .retrieval
  rw [takeResponse]
  split
  · next declared _ =>
    have sized : (terms.checkSize declared.toNat).Returns breaks session fun _ _ => True := by
      rw [checkSize]
      split
      · split
        · trivial
        · trivial
      · trivial
    exact sized.bind fun _ after _ => taking after
  · exact taking session

/-! ## Tasks -/

theorem returns_check (ends : terms.EndWaits) (url : Url) (session : Session σ) :
    (terms.check url).Returns (¬ terms.Countable) session fun _ _ => True := by
  apply (returns_fetch ends.toEndRequests .head url .checking).bind
  intro response after _
  trivial

theorem returns_beginDownload [Sink σ] (ends : terms.EndWaits) (url : Url) (session : Session σ) :
    (terms.beginDownload url).Returns (¬ terms.Countable) session fun _ _ => True := by
  apply (returns_edit _).bind
  intro _ after _
  apply (returns_fetch ends.toEndRequests .get url .connect).bind
  rintro response middle ⟨earlier, request, delay, get, answered⟩
  apply (returns_edit _).bind
  intro _ last _
  exact returns_takeResponse terms (ends.bodies earlier request delay response get answered) last

theorem returns_carryOut [Sink σ] (ends : terms.EndWaits) (task : Task) (url : Url)
    (session : Session σ) :
    (terms.carryOut task url).Returns (¬ terms.Countable) session fun _ _ => True := by
  rw [carryOut]
  split
  · apply (returns_edit _).bind
    intro _ after _
    exact (returns_check ends url after).bind fun _ _ _ => trivial
  · next previous _ _ =>
    have looked : (terms.isUnchanged url previous).Returns (¬ terms.Countable) session
        fun _ _ => True := by
      apply (returns_edit _).bind
      intro _ after _
      apply (returns_check ends url after).bind
      intro current middle _
      split
      · trivial
      · trivial
    apply looked.bind
    intro unchanged after _
    split
    · trivial
    · exact returns_beginDownload ends url after
  · exact returns_beginDownload ends url session

/-- Carrying out a task from its beginning. -/
theorem returns_execute [Sink σ] (ends : terms.EndWaits) (task : Task) {session : Session σ}
    (begins : session.elapsed = .zero) :
    (terms.execute task).Returns (¬ terms.Countable) session fun _ _ => True := by
  rw [execute]
  split
  · trivial
  · next url _ =>
    have set : terms.setDeadline.Returns (¬ terms.Countable) session fun _ _ => True := by
      rcases terms.setDeadline_cases session with set | ⟨broken, bound, given, unshown⟩
      · rw [Returns, set]
        trivial
      · rw [begins] at unshown
        rw [Returns, broken]
        exact .inr ⟨rfl, fun countable => unshown (countable.deadline bound given)⟩
    apply set.bind
    intro _ after _
    exact returns_carryOut ends task url after

end Terms

namespace Session

variable [Sink σ] {terms : Terms}

/-- If every wait has an end, a retrieval from its beginning comes to its end, is interrupted or breaks
down. -/
theorem retrieve_of_endWaits (ends : terms.EndWaits) (task : Task) (sink : σ)
    (requests : List Request) (metrics : Metrics) :
    ∃ ended, (start sink requests metrics).retrieve terms task = (ended, none) ∨
      (start sink requests metrics).retrieve terms task = (ended, some .interrupted) ∨
      (start sink requests metrics).retrieve terms task = (ended, some .panicked) ∧
        ¬ terms.Countable := by
  have returns : (terms.execute task).Returns _ (start sink requests metrics) _ :=
    Terms.returns_execute ends task rfl
  rw [Stage.Returns] at returns
  rw [retrieve]
  generalize terms.execute task (start sink requests metrics) = ran at returns ⊢
  rcases ran with ⟨after, (failure | halt) | size⟩
  · exact ⟨_, .inl rfl⟩
  · rcases returns with rfl | ⟨rfl, breaks⟩
    · exact ⟨_, .inr (.inl rfl)⟩
    · exact ⟨_, .inr (.inr ⟨rfl, breaks⟩)⟩
  · exact ⟨_, .inl rfl⟩

/-- A retrieval from its beginning comes to its end or is interrupted. -/
theorem returns_retrieve (lets : terms.LetEnd) (task : Task) (sink : σ) (requests : List Request)
    (metrics : Metrics) :
    ∃ ended, (start sink requests metrics).retrieve terms task = (ended, none) ∨
      (start sink requests metrics).retrieve terms task = (ended, some .interrupted) := by
  rcases retrieve_of_endWaits lets.toEndWaits task sink requests metrics with
    ⟨ended, came | interrupted | ⟨_, breaks⟩⟩
  · exact ⟨ended, .inl came⟩
  · exact ⟨ended, .inr interrupted⟩
  · exact absurd lets.toCountable breaks

end Session

/-! ## Nodes -/

namespace NodeSetup

variable {setup : NodeSetup} {task : Task}

/-- The work after a retrieval has an end, by itself or by the time for the task. -/
def EndsProcessing (setup : NodeSetup) (task : Task) : Prop :=
  task.limits.processingBound.isSome = true ∨ setup.postProcessing.delay.isSome = true

theorem returns_process (ends : setup.EndsProcessing task) (session : Session AnySink) :
    ∃ after states, setup.process task session = (after, .ok states) := by
  rw [process]
  split
  · exact ⟨_, _, rfl⟩
  · next within =>
    cases takes : setup.postProcessing.delay with
    | some delay => exact ⟨_, _, rfl⟩
    | none =>
        rw [EndsProcessing, takes] at ends
        rcases ends with bounded | ⟨⟨⟩⟩
        rcases Option.isSome_iff_exists.1 bounded with ⟨bound, limited⟩
        rw [overruns, limited, takes] at within
        cases within

/-- A node reports on a task if every wait has an end. -/
theorem returns_run (lets : (setup.terms task).LetEnd) (ends : setup.EndsProcessing task)
    (trace : NodeTrace) (now : Instant) :
    ∃ after report, setup.run task trace now = (after, .ok report) := by
  rw [run]
  rcases AnySink.create setup.sinkKind trace.files setup.folder (StoragePath.ofTask task) with
    ⟨files, error | sink⟩
  · exact ⟨_, _, rfl⟩
  have returns : ∃ after states,
      setup.runInto task (.start sink trace.requests trace.metrics) = (after, .ok states) := by
    rw [runInto]
    rcases Session.returns_retrieve lets task sink trace.requests trace.metrics with
      ⟨last, came | late⟩
    · rw [came]
      dsimp only
      split
      · exact returns_process ends last
      · exact ⟨_, _, rfl⟩
    · rw [late]
      exact ⟨_, _, rfl⟩
  obtain ⟨after, states, came⟩ := returns
  dsimp only
  rw [came]
  exact ⟨_, _, rfl⟩

end NodeSetup

end MediaHarvest
