import MediaHarvest.ByteSize
import MediaHarvest.Metrics
import MediaHarvest.Net.Exchange
import MediaHarvest.Retrieval.Limits
import MediaHarvest.Retrieval.Outcome
import MediaHarvest.Sink.Basic

/-!
# Sessions

A session is a retrieval that is going on: its outcome and its sink so far, the time that has
passed, and the requests that were sent.  Time passes when the session waits for the network, and
only while it waits can it be interrupted.
-/

namespace MediaHarvest

/-- How a node carries out retrievals. -/
structure Policy where
  agent : String
  /-- How long a transfer may be slow at its start. -/
  grace : Span
  /-- The longest wait for a piece before the limits are looked at again. -/
  interval : Span
  /-- How many redirects are followed if the task does not say. -/
  redirectCeiling : UInt32
deriving DecidableEq, Repr

namespace Policy

/-- The usual policy. -/
def usual : Policy := ⟨"harvester/0.1.0", .ofMillis 5000, .ofMillis 250, 30⟩

/-- Whether the name of who asks can be sent: it has no controls but tabulators. -/
def isUsable (policy : Policy) : Bool :=
  (Text.utf8 policy.agent).all fun byte => byte == 9 || (32 ≤ byte && byte != 127)

end Policy

/-- What a retrieval has to keep to. -/
structure Terms where
  network : Network
  policy : Policy
  limits : Limits
  /-- The time at which the retrieval is interrupted. -/
  cutoff : Option Span

/-- A retrieval that is going on. -/
structure Session (σ : Type) where
  outcome : Outcome
  sink : σ
  elapsed : Span
  /-- The requests that were sent, the first one first. -/
  requests : List Request
  metrics : Metrics

/-- Why a retrieval never comes to its end by itself. -/
inductive Halt where
  /-- The time came at which it is interrupted. -/
  | interrupted
  /-- It waits or goes on for ever. -/
  | stuck
  /-- It breaks down. -/
  | panicked
deriving DecidableEq, Repr

/-- Why a retrieval does not go on. -/
inductive Stop where
  | failure (failure : Failure)
  | halted (halt : Halt)
deriving DecidableEq, Repr

/-- A step of a retrieval. -/
abbrev Stage (σ α : Type) := Session σ → Session σ × Except Stop α

namespace Stage

variable {σ α β : Type}

/-- Ends with a value. -/
def done (value : α) : Stage σ α := fun session => (session, .ok value)

/-- Ends with a failure. -/
def fail (failure : Failure) : Stage σ α := fun session => (session, .error (.failure failure))

/-- Breaks down. -/
def breakDown : Stage σ α := fun session => (session, .error (.halted .panicked))

/-- Goes on after a stage. -/
def andThen (first : Stage σ α) (next : α → Stage σ β) : Stage σ β := fun session =>
  match first session with
  | (session, .ok value) => next value session
  | (session, .error stop) => (session, .error stop)

instance : Monad (Stage σ) where
  pure := done
  bind := andThen

/-- Changes the outcome. -/
def edit (change : Outcome → Outcome) : Stage σ Unit := fun session =>
  ({ session with outcome := change session.outcome }, .ok ())

/-- The time that has passed. -/
def clock : Stage σ Span := fun session => (session, .ok session.elapsed)

/-! ## Waiting -/

/-- Lets time pass, up to the time at which the retrieval is interrupted. -/
def wait (cutoff : Option Span) (span : Span) : Stage σ Unit := fun session =>
  let later : Span := ⟨session.elapsed.nanos + span.nanos⟩
  match cutoff with
  | some cut =>
      if cut.nanos < later.nanos then ({ session with elapsed := cut }, .error (.halted .interrupted))
      else ({ session with elapsed := later }, .ok ())
  | none => ({ session with elapsed := later }, .ok ())

/-- Waits for something that takes `span`; if it does not come within the bound, the retrieval
fails as the bound says. -/
def waitWithin (cutoff : Option Span) (bound : Option (Span × Failure)) (span : Span) :
    Stage σ Unit :=
  match bound with
  | none => wait cutoff span
  | some (limit, failure) =>
      if span.nanos < limit.nanos then wait cutoff span
      else do wait cutoff limit; fail failure

/-- Waits for something that never comes. -/
def waitForever (cutoff : Option Span) : Stage σ α := fun session =>
  match cutoff with
  | some cut => ({ session with elapsed := cut }, .error (.halted .interrupted))
  | none => (session, .error (.halted .stuck))

/-- Waits for something that never comes; if there is a bound, the retrieval fails as it says. -/
def waitInVain (cutoff : Option Span) (bound : Option (Span × Failure)) : Stage σ α :=
  match bound with
  | none => waitForever cutoff
  | some (limit, failure) => do wait cutoff limit; fail failure

/-! ## Repeating -/

variable (step : α → Stage σ α) in
/-- Repeats a step on what it gave before, until it stops; none if it never stops. -/
def repeating? (value : α) (session : Session σ) : Option (Session σ × Stop) :=
  match step value session with
  | (session, .ok value) => repeating?.uncurry (value, session)
  | (session, .error stop) => some (session, stop)
partial_fixpoint monotonicity fun _ _ le value session => by
  -- a round does nothing with the loop but go on with it
  dsimp only
  split
  · exact le _ _
  · exact .refl

/-- Repeats a step until it stops. -/
def forever (step : α → Stage σ α) (value : α) : Stage σ β := fun session =>
  match repeating? step value session with
  | some (session, stop) => (session, .error stop)
  | none => (session, .error (.halted .stuck))

/-! ## Measuring -/

/-- Notes how long a stage takes as the time of a phase, however it ends. -/
def timed (phase : Phase) (stage : Stage σ α) : Stage σ α := fun session =>
  let (after, result) := stage session
  let span : Span := ⟨after.elapsed.nanos - session.elapsed.nanos⟩
  ({ after with outcome := { after.outcome with times := after.outcome.times.record phase span } },
    result)

end Stage

namespace Terms

/-- What is left of the time for the retrieval. -/
def remaining (terms : Terms) (elapsed : Span) : Option Span :=
  terms.limits.retrievalBound.map fun bound => ⟨bound.nanos - elapsed.nanos⟩

/-- How long a request may take up to its response: the time for connecting or what is left of the
time for the retrieval, whichever is shorter; with the failure if it takes longer. -/
def requestBound (terms : Terms) (elapsed : Span) : Option (Span × Failure) :=
  let connect := terms.limits.connectionBound.map fun bound => (bound, Failure.connectTimeout bound)
  let total := (terms.remaining elapsed).map fun left =>
    (left, Failure.readTimeout terms.limits.retrievalTime)
  match connect, total with
  | some connect, some total => some (if connect.1.nanos ≤ total.1.nanos then connect else total)
  | some connect, none => some connect
  | none, total => total

/-- Whether a transfer is fast enough; nothing is asked of it within the grace. -/
def checkThroughput (terms : Terms) (elapsed : Span) (received : Nat) : Except Failure Unit :=
  match terms.limits.floor with
  | none => .ok ()
  | some floor =>
      if elapsed.nanos < terms.policy.grace.nanos then .ok ()
      else
        let observed := (ByteSize.mk (UInt64.ofNat received)).rateOver elapsed
        if observed < floor then .error (.tooSlow observed floor) else .ok ()

/-- The longest wait for a piece of a body: up to the next look at the limits, at least a
millisecond, and no longer than what is left of the time for the retrieval. -/
def bodyWait (terms : Terms) (elapsed : Span) : Except Failure Span :=
  let tick : Span := ⟨max terms.policy.interval.nanos 1000000⟩
  match terms.remaining elapsed with
  | none => .ok tick
  | some left =>
      if left = .zero then .error (.readTimeout terms.limits.retrievalTime)
      else .ok ⟨min left.nanos tick.nanos⟩

/-- The wait for a piece of a body is never empty. -/
theorem bodyWait_pos {terms : Terms} {elapsed slice : Span}
    (given : terms.bodyWait elapsed = .ok slice) : 0 < slice.nanos := by
  unfold bodyWait at given
  dsimp only at given
  split at given
  · cases given
    exact Nat.lt_of_lt_of_le (by decide) (Nat.le_max_right _ _)
  · next left _ =>
    split at given
    · cases given
    · next nonzero =>
      cases given
      have positive : 0 < left.nanos := Nat.pos_of_ne_zero fun zero => nonzero (by
        cases left; simp_all [Span.zero])
      exact Nat.lt_min.2 ⟨positive, Nat.lt_of_lt_of_le (by decide) (Nat.le_max_right _ _)⟩

end Terms

end MediaHarvest
