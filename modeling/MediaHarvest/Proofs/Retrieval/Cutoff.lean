import MediaHarvest.Proofs.Retrieval.Trails

/-!
# Retrievals that are cut off

A retrieval that is interrupted at some time goes on until then as one that is not.  So it comes to
the same end if there is time for that, and otherwise it is interrupted punctually, also where the
other one gets stuck.
-/

namespace MediaHarvest

variable {σ α β : Type}

namespace Stage

/-- A run takes longer than up to a time: it ends later, or never. -/
def Outlasts (cut : Span) (whole : Session σ × Except Stop α) : Prop :=
  cut.nanos < whole.1.elapsed.nanos ∨ whole.2 = .error (.halted .stuck)

/-- What becomes of a run that is cut off: it ends as the whole run does, which takes no longer, or
it is interrupted at that time, and the whole run takes longer. -/
inductive CutOff (cut : Span) :
    Session σ × Except Stop α → Session σ × Except Stop α → Prop where
  | inTime {ended : Session σ × Except Stop α} (within : ended.1.elapsed.nanos ≤ cut.nanos) :
      CutOff cut ended ended
  | interrupted {near : Session σ} {whole : Session σ × Except Stop α}
      (punctual : near.elapsed = cut) (late : Outlasts cut whole) :
      CutOff cut (near, .error (.halted .interrupted)) whole

/-- A stage that is cut off at a time, and the whole stage. -/
structure Cuts (cut : Span) (stage whole : Stage σ α) : Prop where
  forward : ∀ session : Session σ, session.elapsed.nanos ≤ (whole session).1.elapsed.nanos
  cutOff : ∀ session : Session σ, session.elapsed.nanos ≤ cut.nanos →
    CutOff cut (stage session) (whole session)

variable {cut : Span}

/-- One stage after the other. -/
theorem Cuts.bind {first first' : Stage σ α} {next next' : α → Stage σ β}
    (cuts : Cuts cut first first') (others : ∀ value, Cuts cut (next value) (next' value)) :
    Cuts cut (first >>= next) (first' >>= next') where
  forward session := by
    have begun := cuts.forward session
    rcases bind_cases first' next' session with
      ⟨middle, value, ended, goesOn⟩ | ⟨middle, stop, ended, stops⟩
    · rw [ended] at begun
      rw [goesOn]
      exact Nat.le_trans begun ((others value).forward middle)
    · rw [ended] at begun
      rw [stops]
      exact begun
  cutOff session early := by
    have begun := cuts.cutOff session early
    rcases ran : first session with ⟨near, result⟩
    rw [ran] at begun
    rcases bind_cases first' next' session with
      ⟨middle, value, ended, goesOn⟩ | ⟨middle, stop, ended, stops⟩
    · rw [ended] at begun
      rw [goesOn]
      cases begun with
      | inTime within =>
          rw [bind_of_ok ran]
          exact (others value).cutOff _ within
      | interrupted punctual late =>
          rw [bind_of_error ran]
          refine .interrupted punctual (.inl ?_)
          rcases late with late | ⟨⟨⟩⟩
          exact Nat.lt_of_lt_of_le late ((others value).forward middle)
    · rw [ended] at begun
      rw [stops]
      cases begun with
      | inTime within =>
          rw [bind_of_error ran]
          exact .inTime within
      | interrupted punctual late =>
          rw [bind_of_error ran]
          refine .interrupted punctual (late.imp_right ?_)
          rintro ⟨⟩
          rfl

/-- Noting the times of a stage takes no time. -/
theorem Cuts.timed {stage whole : Stage σ α} (cuts : Cuts cut stage whole) (phase : Phase) :
    Cuts cut (Stage.timed phase stage) (Stage.timed phase whole) where
  forward := cuts.forward
  cutOff session early := by
    have begun := cuts.cutOff session early
    unfold Stage.timed
    generalize stage session = ended at begun ⊢
    generalize whole session = ended' at begun ⊢
    cases begun with
    | inTime within => exact .inTime within
    | interrupted punctual late =>
        refine .interrupted punctual (late.imp_right ?_)
        exact fun stuck => stuck

/-! ## Waiting -/

section Repeating

variable {step whole : α → Stage σ α}

theorem forward_repeating (cuts : ∀ value, Cuts cut (step value) (whole value)) {value : α}
    {session after : Session σ} {stop : Stop}
    (ended : repeating? whole value session = some (after, stop)) :
    session.elapsed.nanos ≤ after.elapsed.nanos := by
  refine repeating?.partial_correctness whole
    (fun _ session ended => session.elapsed.nanos ≤ ended.1.elapsed.nanos) ?_ value session _ ended
  rintro others kept value session ⟨after, stop⟩ same
  have begun := (cuts value).forward session
  rcases round : whole value session with ⟨middle, stopped | next⟩
  · rw [round] at same begun
    cases same
    exact begun
  · rw [round] at same begun
    exact Nat.le_trans begun (kept next middle _ same)

/-- Rounds that are cut off come to a stop if whole ones do. -/
theorem isSome_repeating (cuts : ∀ value, Cuts cut (step value) (whole value)) {value : α}
    {session : Session σ} {ended : Session σ × Stop}
    (stops : repeating? whole value session = some ended)
    (early : session.elapsed.nanos ≤ cut.nanos) :
    (repeating? step value session).isSome = true := by
  refine repeating?.partial_correctness whole
    (fun value session _ => session.elapsed.nanos ≤ cut.nanos →
      (repeating? step value session).isSome = true) ?_ value session ended stops early
  rintro others kept value session ended same early
  have cutOff := (cuts value).cutOff session early
  rw [repeating?]
  rcases ran : step value session with ⟨middle, stop | next⟩
  · rfl
  · rw [ran] at cutOff
    generalize whole value session = round at same cutOff
    cases cutOff with
    | inTime within => exact kept next middle ended same within

/-- Rounds that are cut off come to the same stop as whole ones, which take no longer, or they are
interrupted, and the whole ones take longer. -/
theorem cutOff_repeating (cuts : ∀ value, Cuts cut (step value) (whole value)) {value : α}
    {session : Session σ} {ended : Session σ × Stop}
    (stops : repeating? step value session = some ended)
    (early : session.elapsed.nanos ≤ cut.nanos) :
    repeating? whole value session = some ended ∧ ended.1.elapsed.nanos ≤ cut.nanos ∨
      ended.2 = .halted .interrupted ∧ ended.1.elapsed = cut ∧
        ∀ last, repeating? whole value session = some last →
          cut.nanos < last.1.elapsed.nanos ∨ last.2 = .halted .stuck := by
  refine repeating?.partial_correctness step
    (fun value session ended => session.elapsed.nanos ≤ cut.nanos →
      repeating? whole value session = some ended ∧ ended.1.elapsed.nanos ≤ cut.nanos ∨
        ended.2 = .halted .interrupted ∧ ended.1.elapsed = cut ∧
          ∀ last, repeating? whole value session = some last →
            cut.nanos < last.1.elapsed.nanos ∨ last.2 = .halted .stuck) ?_ value session ended
    stops early
  rintro others kept value session ended same early
  have cutOff := (cuts value).cutOff session early
  rw [repeating?]
  rcases ran : step value session with ⟨middle, stop | next⟩
  · rw [ran] at same cutOff
    cases same
    generalize whole value session = round at cutOff ⊢
    cases cutOff with
    | inTime within => exact .inl ⟨rfl, within⟩
    | interrupted punctual late =>
        refine .inr ⟨rfl, punctual, ?_⟩
        rintro ⟨last, stop⟩ lasts
        rcases round with ⟨middle, stopped | next⟩
        · cases lasts
          exact late.imp_right fun stuck => Except.error.inj stuck
        · left
          rcases late with late | ⟨⟨⟩⟩
          exact Nat.lt_of_lt_of_le late (forward_repeating cuts lasts)
  · rw [ran] at same cutOff
    generalize whole value session = round at cutOff ⊢
    cases cutOff with
    | inTime within => exact kept next middle ended same within

theorem Cuts.forever (cuts : ∀ value, Cuts cut (step value) (whole value)) (value : α) :
    Cuts cut (forever step value : Stage σ β) (forever whole value) where
  forward session := by
    rw [Stage.forever]
    rcases ended : repeating? whole value session with _ | ⟨after, stop⟩
    · exact Nat.le_refl _
    · exact forward_repeating cuts ended
  cutOff session early := by
    rw [Stage.forever, Stage.forever]
    rcases ended : repeating? step value session with _ | ⟨after, stop⟩
    · rcases stops : repeating? whole value session with _ | last
      · exact .inTime early
      · have also := isSome_repeating cuts stops early
        rw [ended] at also
        cases also
    · rcases cutOff_repeating cuts ended early with ⟨same, within⟩ | ⟨rfl, punctual, late⟩
      · rw [same]
        exact .inTime within
      · refine .interrupted punctual ?_
        rcases stops : repeating? whole value session with _ | ⟨last, stop⟩
        · exact .inr rfl
        · rcases late _ stops with late | rfl
          · exact .inl late
          · exact .inr rfl

end Repeating

end Stage

namespace Terms

open Stage

/-- Terms under which a retrieval is interrupted at a time, or not at all. -/
def upTo (terms : Terms) (cutoff : Option Span) : Terms := { terms with cutoff := cutoff }

variable {terms : Terms} {cut : Span}

/-! ## Requests -/

variable [Sink σ]

end Terms

/-! ## The end -/

namespace Session

open Stage Terms

variable [Sink σ] {terms : Terms} {cut : Span}

end Session

end MediaHarvest
