import MediaHarvest.Proofs.Retrieval.Run

/-!
# Retrievals without haste

Without a limit on the time and on the rate no wait for a piece of a body fails.  What a transfer
comes to then depends on the pieces and on the sink, not on when the pieces come.
-/

namespace MediaHarvest

variable {σ : Type}

/-- The session after a span has passed. -/
def Session.later (span : Span) (session : Session σ) : Session σ :=
  { session with elapsed := ⟨session.elapsed.nanos + span.nanos⟩ }

/-- The time of a phase is the span that its stage takes. -/
theorem Stage.timed_of_took {α : Type} {stage : Stage σ α} {session after : Session σ}
    {result : Except Stop α} {span : Span} (came : stage session = (after, result))
    (took : after.elapsed = (session.later span).elapsed) (phase : Phase) :
    timed phase stage session =
      ({ after with
        outcome := { after.outcome with times := after.outcome.times.record phase span } },
        result) := by
  unfold timed
  rw [came]
  dsimp only
  rw [took, Session.later, Nat.add_sub_cancel_left]

namespace Terms

open Stage

/-- Neither the time of a retrieval nor its rate is limited. -/
structure Unhurried (terms : Terms) : Prop where
  uncut : terms.cutoff = none
  untimed : terms.limits.retrievalTime = .zero
  unpaced : terms.limits.throughputFloor = 0

variable {terms : Terms}

theorem Unhurried.remaining (unhurried : terms.Unhurried) (elapsed : Span) :
    terms.remaining elapsed = none := by
  rw [Terms.remaining, Limits.retrievalBound, unhurried.untimed]
  rfl

/-- The bound on a request is the same at all times. -/
theorem Unhurried.requestBound (unhurried : terms.Unhurried) (elapsed later : Span) :
    terms.requestBound elapsed = terms.requestBound later := by
  simp only [Terms.requestBound, unhurried.remaining]

theorem Unhurried.bodyWait (unhurried : terms.Unhurried) (elapsed : Span) :
    ∃ tick, terms.bodyWait elapsed = .ok tick := by
  rw [Terms.bodyWait, unhurried.remaining]
  exact ⟨_, rfl⟩

theorem Unhurried.checkThroughput (unhurried : terms.Unhurried) (elapsed : Span)
    (received : Nat) : terms.checkThroughput elapsed received = .ok () := by
  rw [Terms.checkThroughput, Limits.floor, unhurried.unpaced]
  rfl

/-- Nothing cuts a wait off. -/
theorem wait_of_unhurried (unhurried : terms.Unhurried) (span : Span) (session : Session σ) :
    wait terms.cutoff span session = (session.later span, .ok ()) := by
  rw [unhurried.uncut]
  rfl

/-- Whatever the origin takes its time for comes in the end. -/
theorem awaitPiece_of_unhurried (unhurried : terms.Unhurried) (started : Span) (received : Nat)
    (left : Span) (session : Session σ) :
    terms.awaitPiece started received left session = (session.later left, .ok ()) := by
  fun_induction awaitPiece terms started received left session with
  | case1 left session failure given =>
      obtain ⟨tick, fits⟩ := unhurried.bodyWait session.elapsed
      rw [given] at fits
      cases fits
  | case2 left session => exact wait_of_unhurried unhurried left session
  | case3 left session slice _ _ after stop waited =>
      rw [wait_of_unhurried unhurried] at waited
      cases waited
  | case4 left session slice _ _ after waited failure slow =>
      rw [unhurried.checkThroughput] at slow
      cases slow
  | case5 left session slice _ within after waited _ _ ih =>
      rw [wait_of_unhurried unhurried] at waited
      cases waited
      have whole : session.elapsed.nanos + slice.nanos + (left.nanos - slice.nanos) =
          session.elapsed.nanos + left.nanos := by omega
      rw [ih, Session.later, Session.later, Session.later]
      dsimp only
      rw [whole]

theorem checkSpeed_of_unhurried (unhurried : terms.Unhurried) (started : Span) (received : Nat)
    (session : Session σ) : terms.checkSpeed started received session = (session, .ok ()) := by
  rw [checkSpeed, bind_of_ok (rfl : clock session = (session, .ok session.elapsed))]
  rw [unhurried.checkThroughput]
  rfl

/-- There is no time by which the retrieval has to end. -/
theorem setDeadline_of_unhurried (unhurried : terms.Unhurried) (session : Session σ) :
    terms.setDeadline session = (session, .ok ()) := by
  rw [setDeadline, Limits.retrievalBound, unhurried.untimed]
  rfl

/-- A piece is looked at as to its size and put into the sink. -/
theorem takePiece_of_unhurried [Sink σ] (unhurried : terms.Unhurried) (started : Span)
    (received : Nat) (chunk : Chunk) (session : Session σ) :
    terms.takePiece started received chunk session =
      (do
        terms.checkSize (received + chunk.bytes.length)
        store chunk.bytes
        return received + chunk.bytes.length)
        (session.later chunk.delay) := by
  rw [takePiece, bind_of_ok (awaitPiece_of_unhurried unhurried started received chunk.delay session)]
  have paced (next : Stage σ Nat) :
      (do terms.checkSpeed started (received + chunk.bytes.length); next) = next := by
    funext session
    exact bind_of_ok (checkSpeed_of_unhurried unhurried started _ session) _
  rw [paced]

end Terms

end MediaHarvest
