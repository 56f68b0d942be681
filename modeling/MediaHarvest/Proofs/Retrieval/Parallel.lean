import MediaHarvest.Proofs.Retrieval.Redirects
import MediaHarvest.Proofs.Retrieval.Unhurried

/-!
# Retrievals side by side

Two sessions that go through the same stages are followed in parallel: `Stage.Parallel` says that
both come to the same value, or stop for the same reason, and how they are related then.  If nothing
is in haste and the origin answers a request in the same way every time, a download depends on the
sink alone: neither on the time nor on what was asked before.
-/

namespace MediaHarvest

variable {σ α β γ δ : Type}

namespace Stage

/-- Two ends that agree: with the same value, or for the same reason. -/
inductive Agreed (after : α → Session σ → Session σ → Prop)
    (failed : Session σ → Session σ → Prop) :
    Session σ × Except Stop α → Session σ × Except Stop α → Prop where
  | ended {left right : Session σ} {value : α} (related : after value left right) :
      Agreed after failed (left, .ok value) (right, .ok value)
  | stopped {left right : Session σ} {stop : Stop} (related : failed left right) :
      Agreed after failed (left, .error stop) (right, .error stop)

/-- From sessions that are related before, the two stages come to ends that agree. -/
def Parallel (before : Session σ → Session σ → Prop) (one other : Stage σ α)
    (after : α → Session σ → Session σ → Prop) (failed : Session σ → Session σ → Prop) : Prop :=
  ∀ ⦃left right⦄, before left right → Agreed after failed (one left) (other right)

section Rules

variable {before failed failed' : Session σ → Session σ → Prop}
  {after after' : α → Session σ → Session σ → Prop} {one other : Stage σ α}

/-- One stage after the other. -/
theorem Parallel.bind {next next' : α → Stage σ β} {middle : α → Session σ → Session σ → Prop}
    {after : β → Session σ → Session σ → Prop} (parallel : Parallel before one other middle failed)
    (others : ∀ value, Parallel (middle value) (next value) (next' value) after failed) :
    Parallel before (one >>= next) (other >>= next') after failed := by
  intro left right given
  have agreed := parallel given
  rcases first : one left with ⟨near, result⟩
  rcases second : other right with ⟨far, result'⟩
  rw [first, second] at agreed
  cases agreed with
  | ended related =>
      rw [bind_of_ok first, bind_of_ok second]
      exact others _ related
  | stopped related =>
      rw [bind_of_error first, bind_of_error second]
      exact .stopped related

/-- Two stages in parallel are so in the other order. -/
theorem Parallel.flip (parallel : Parallel before one other after failed) :
    Parallel (fun right left => before left right) other one
      (fun value right left => after value left right) fun right left => failed left right := by
  intro right left given
  have agreed := parallel given
  generalize one left = first at agreed ⊢
  generalize other right = second at agreed ⊢
  cases agreed with
  | ended related => exact .ended related
  | stopped related => exact .stopped related

/-- If one of two repetitions in parallel stops, so does the other. -/
theorem Parallel.stops {step step' : α → Stage σ α} {holds : α → Session σ → Session σ → Prop}
    (parallel : ∀ value, Parallel (holds value) (step value) (step' value) holds failed)
    (value : α) {left right : Session σ} (given : holds value left right) :
    (∃ near far stop, (forever step value : Stage σ β) left = (near, .error stop) ∧
      (forever step' value : Stage σ β) right = (far, .error stop) ∧ failed near far) ∨
    (forever step value : Stage σ β) left = (left, .error (.halted .stuck)) := by
  rcases forever_cases (β := β) step (fun value left near stop => ∀ right, holds value left right →
      ∃ far, repeating? step' value right = some (far, stop) ∧ failed near far)
    (fun value left near stop ended right given => by
      have agreed := parallel value given
      rw [ended] at agreed
      rw [repeating?]
      generalize step' value right = second at agreed
      cases agreed with
      | stopped related => exact ⟨_, rfl, related⟩)
    (fun value left next middle near stop round others right given => by
      have agreed := parallel value given
      rw [round] at agreed
      rw [repeating?]
      generalize step' value right = second at agreed
      cases agreed with
      | ended related => exact others _ related) value left with ⟨near, stop, ended, follows⟩ | stuck
  · left
    rcases follows right given with ⟨far, same, related⟩
    refine ⟨near, far, stop, ended, ?_, related⟩
    rw [forever, same]
  · exact .inr stuck

/-- Two repetitions in parallel stop for the same reason, or both get stuck. -/
theorem Parallel.forever (holds : α → Session σ → Session σ → Prop) {step step' : α → Stage σ α}
    {after : β → Session σ → Session σ → Prop}
    (parallel : ∀ value, Parallel (holds value) (step value) (step' value) holds failed)
    (ends : ∀ value left right, holds value left right → failed left right) (value : α) :
    Parallel (holds value) (forever step value) (forever step' value) after failed := by
  intro left right given
  rcases Parallel.stops (β := β) parallel value given with
    ⟨near, far, stop, ended, ended', related⟩ | stuck
  · rw [ended, ended']
    exact .stopped related
  rcases Parallel.stops (β := β) (fun value => (parallel value).flip) value given with
    ⟨far, near, stop, ended', ended, related⟩ | stuck'
  · rw [ended, ended']
    exact .stopped related
  · rw [stuck, stuck']
    exact .stopped (ends value left right given)

/-- Noting the times of two stages changes nothing else. -/
theorem Parallel.timed (parallel : Parallel before one other after failed) (phase : Phase)
    (ends : ∀ value (left right : Session σ) times times', after value left right →
      after' value { left with outcome := { left.outcome with times := times } }
        { right with outcome := { right.outcome with times := times' } })
    (stops : ∀ (left right : Session σ) times times', failed left right →
      failed' { left with outcome := { left.outcome with times := times } }
        { right with outcome := { right.outcome with times := times' } }) :
    Parallel before (Stage.timed phase one) (Stage.timed phase other) after' failed' := by
  intro left right given
  have agreed := parallel given
  unfold Stage.timed
  generalize one left = first at agreed ⊢
  generalize other right = second at agreed ⊢
  cases agreed with
  | ended related => exact .ended (ends _ _ _ _ _ related)
  | stopped related => exact .stopped (stops _ _ _ _ related)

end Rules

end Stage

/-! ## Sessions that have come to the same -/

namespace Outcome

/-- Nothing in particular. -/
def nothing (_ : Outcome) : Unit := ()

/-- What is known of who answered. -/
def heard (outcome : Outcome) : Option UInt16 × Option Address :=
  (outcome.httpStatus, outcome.sourceAddress)

end Outcome

namespace Terms

open Stage Session

variable {terms : Terms} {part : Outcome → γ}

/-! ## Requests -/

variable [Sink σ]

end Terms

/-! ## Ends -/

namespace Session

variable [Sink σ] {left right : Session σ}

end Session

end MediaHarvest
