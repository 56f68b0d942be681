import MediaHarvest.Proofs.Retrieval.Trails

/-!
# Stages and the sink

Asking for something leaves the sink alone, and a body only fills it: until its end a retrieval puts
pieces into its sink and does nothing else to it.
-/

namespace MediaHarvest

variable {σ α β : Type}

namespace Stage

/-- The stage leaves the sink as it is, however it ends. -/
def Dry (stage : Stage σ α) : Prop :=
  ∀ session : Session σ, (stage session).1.sink = session.sink

theorem Waits.dry {stage : Stage σ α} (waits : stage.Waits) : stage.Dry := by
  intro session
  obtain ⟨elapsed, same⟩ := waits session
  rw [same]

theorem Dry.bind {first : Stage σ α} {next : α → Stage σ β} (dry : first.Dry)
    (others : ∀ value, (next value).Dry) : (first >>= next).Dry := by
  intro session
  have begun := dry session
  rcases bind_cases first next session with
    ⟨middle, value, ended, goesOn⟩ | ⟨middle, stop, ended, stops⟩
  · rw [ended] at begun
    rw [goesOn]
    exact (others value middle).trans begun
  · rw [ended] at begun
    rw [stops]
    exact begun

theorem Dry.timed {stage : Stage σ α} (dry : stage.Dry) (phase : Phase) :
    (timed phase stage).Dry :=
  dry

end Stage

namespace Terms

open Stage

variable {terms : Terms}

end Terms

/-! ## Filling the sink -/

namespace Stage

variable [Sink σ]

/-- The stage puts pieces into the sink and does nothing else to it, however it ends. -/
def Fills (stage : Stage σ α) : Prop :=
  ∀ kept : σ → Prop, (∀ sink piece, kept sink → kept (Sink.write piece sink).1) →
    ∀ session : Session σ, kept session.sink → kept (stage session).1.sink

theorem Dry.fills {stage : Stage σ α} (dry : stage.Dry) : stage.Fills := by
  intro kept _ session holds
  rw [dry session]
  exact holds

theorem Fills.bind {first : Stage σ α} {next : α → Stage σ β} (fills : first.Fills)
    (others : ∀ value, (next value).Fills) : (first >>= next).Fills := by
  intro kept keeps session holds
  have begun := fills kept keeps session holds
  rcases bind_cases first next session with
    ⟨middle, value, ended, goesOn⟩ | ⟨middle, stop, ended, stops⟩
  · rw [ended] at begun
    rw [goesOn]
    exact others value kept keeps middle begun
  · rw [ended] at begun
    rw [stops]
    exact begun

/-- Filling the sink round by round, for ever or up to a stop. -/
theorem Fills.forever {step : α → Stage σ α} (fills : ∀ value, (step value).Fills) (value : α) :
    (forever step value : Stage σ β).Fills := by
  intro kept keeps session holds
  rcases forever_cases (β := β) step (fun _ session after _ => kept session.sink → kept after.sink)
    (fun value session after stop ended holds => by
      have filled := fills value kept keeps session holds
      rwa [ended] at filled)
    (fun value session next middle after stop round others holds => by
      have filled := fills value kept keeps session holds
      rw [round] at filled
      exact others filled) value session with ⟨after, stop, ended, filled⟩ | stuck
  · rw [ended]
    exact filled holds
  · rw [stuck]
    exact holds

end Stage

namespace Terms

open Stage

variable [Sink σ]

end Terms

end MediaHarvest
