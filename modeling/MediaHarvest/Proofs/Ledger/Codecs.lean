import MediaHarvest.Proofs.Json.Codec
import MediaHarvest.Proofs.Json.Yields
import MediaHarvest.Proofs.Net.Address
import MediaHarvest.Proofs.Time.Millis
import MediaHarvest.Proofs.Time.Rfc3339
import MediaHarvest.Statistics.Record

/-!
# What the ledger stores is read back

Every record that the ledger keeps is read back as it was written.  The only condition is on the
limits of a job: they are stored in whole milliseconds.  A job that was read meets it, so it may be
written again.
-/

namespace MediaHarvest

open Json Json.Codec Json.Shape

variable {room : Nat}

/-! ## Parts -/

theorem Instant.codec_readsBack (instant : Instant) : codec.ReadsBack room instant :=
  parsed_readsBack (by rw [Time.parse_render]; rfl)

theorem Address.codec_readsBack (address : Address) : codec.ReadsBack room address :=
  parsed_readsBack (by rw [Address.parse?_text])

/-- A span of whole milliseconds is read back. -/
theorem Span.codec_readsBack {span : Span} (whole : span.Whole) : codec.ReadsBack room span := by
  have law : word64.ReadsBack room span.wholeMillis := word64_readsBack _
  refine ⟨law.fits, fun source => ?_⟩
  show ofMillis <$> word64.decode source (word64.encode span.wholeMillis).tree = _
  rw [law.back]
  exact congrArg Except.ok (ofMillis_wholeMillis whole)

theorem TaskKind.codec_readsBack (kind : TaskKind) : codec.ReadsBack room kind :=
  choice_readsBack (by cases kind <;> rfl)

theorem SourceRole.codec_readsBack (role : SourceRole) : codec.ReadsBack room role :=
  choice_readsBack (by cases role <;> rfl)

theorem JobState.codec_readsBack (state : JobState) : codec.ReadsBack room state :=
  choice_readsBack (by cases state <;> rfl)

theorem TaskState.codec_readsBack (state : TaskState) : codec.ReadsBack room state :=
  choice_readsBack (by cases state <;> rfl)

theorem Verdict.codec_readsBack (verdict : Verdict) : codec.ReadsBack room verdict :=
  choice_readsBack (by cases verdict <;> rfl)

theorem SubTask.codec_readsBack (subTask : SubTask) : codec.ReadsBack room subTask :=
  choice_readsBack (by cases subTask <;> rfl)

theorem SubTaskState.codec_readsBack (state : SubTaskState) : codec.ReadsBack room state :=
  choice_readsBack (by cases state <;> rfl)

theorem RetrievalState.codec_readsBack (state : RetrievalState) : codec.ReadsBack room state :=
  choice_readsBack (by cases state <;> rfl)

/-! ## Records -/

theorem Owner.codec_readsBack (owner : Owner) : codec.ReadsBack (room + 1) owner :=
  Shape.codec_readsBack
    ((field_readsBack (text_readsBack _)).map mk
      |>.seq (field_readsBack (text_readsBack _))
      |>.seq (field_readsBack (text_readsBack _))
      |>.seq (field_readsBack (text_readsBack _)))
    (by decide)

theorem Limits.codec_readsBack {limits : Limits} (whole : limits.Whole) :
    codec.ReadsBack (room + 1) limits :=
  Shape.codec_readsBack
    ((field_readsBack (Span.codec_readsBack whole.connection)).map mk
      |>.seq (field_readsBack (word64_readsBack _))
      |>.seq (field_readsBack (Span.codec_readsBack whole.retrieval))
      |>.seq (field_readsBack (word32_readsBack _))
      |>.seq (field_readsBack (Span.codec_readsBack whole.processing))
      |>.seq (field_readsBack (word64_readsBack _)))
    (by decide)

theorem PlannedTask.codec_readsBack (task : PlannedTask) : codec.ReadsBack (room + 2) task :=
  Shape.codec_readsBack
    ((field_readsBack (TaskKind.codec_readsBack _)).map mk
      |>.seq (field_readsBack (text_readsBack _))
      |>.seq (field_readsBack (list_readsBack fun _ _ => SubTask.codec_readsBack _)))
    (by decide)

/-- A job with whole limits is read back. -/
theorem Job.codec_readsBack {job : Job} (whole : job.limits.Whole) :
    codec.ReadsBack (room + 4) job :=
  Shape.codec_readsBack
    ((field_readsBack (text_readsBack _)).map mk
      |>.seq (field_readsBack (Owner.codec_readsBack _))
      |>.seq (field_readsBack (list_readsBack fun _ _ => PlannedTask.codec_readsBack _))
      |>.seq (field_readsBack (JobState.codec_readsBack _))
      |>.seq (field_readsBack (SourceRole.codec_readsBack _))
      |>.seq (field_readsBack (Limits.codec_readsBack whole))
      |>.seq (field_readsBack (Instant.codec_readsBack _))
      |>.seq (field_readsBack (Instant.codec_readsBack _)))
    (by decide)

theorem Resource.codec_readsBack (resource : Resource) :
    codec.ReadsBack (room + 2) resource :=
  Shape.codec_readsBack
    ((field_readsBack (text_readsBack _)).map mk
      |>.seq (field_readsBack (option_readsBack (fun _ _ => text_readsBack _) (by rintro _ _ ⟨⟩)))
      |>.seq (field_readsBack (Owner.codec_readsBack _))
      |>.seq (field_readsBack (bool_readsBack _))
      |>.seq (field_readsBack (option_readsBack (fun _ _ => text_readsBack _) (by rintro _ _ ⟨⟩)))
      |>.seq (field_readsBack (list_readsBack fun _ _ => text_readsBack _)))
    (by decide)

theorem SubTaskStates.codec_readsBack (states : SubTaskStates) :
    codec.ReadsBack (room + 1) states :=
  Shape.codec_readsBack
    ((field_readsBack (SubTaskState.codec_readsBack _)).map mk
      |>.seq (field_readsBack (SubTaskState.codec_readsBack _))
      |>.seq (field_readsBack (SubTaskState.codec_readsBack _))
      |>.seq (field_readsBack (SubTaskState.codec_readsBack _))
      |>.seq (field_readsBack (SubTaskState.codec_readsBack _)))
    (by decide)

theorem Measurements.shape_readsBack (measurements : Measurements) :
    shape.ReadsBack (room + 1) measurements measurements :=
  (field_readsBack (text_readsBack _)).map mk
      |>.seq (field_readsBack (Verdict.codec_readsBack _))
      |>.seq (field_readsBack (RetrievalState.codec_readsBack _))
      |>.seq (field_readsBack (TaskState.codec_readsBack _))
      |>.seq (field_readsBack (option_readsBack (fun _ _ => word16_readsBack _) (by rintro _ _ ⟨⟩)))
      |>.seq (field_readsBack (option_readsBack (fun _ _ => text_readsBack _) (by rintro _ _ ⟨⟩)))
      |>.seq (field_readsBack (word64_readsBack _))
      |>.seq (field_readsBack (word64_readsBack _))
      |>.seq (field_readsBack (word64_readsBack _))
      |>.seq (field_readsBack (word64_readsBack _))
      |>.seq (field_readsBack
        (option_readsBack (fun _ _ => Address.codec_readsBack _) (by rintro _ _ ⟨⟩)))
      |>.seq (field_readsBack (map_readsBack fun _ _ => text_readsBack _))
      |>.seq (field_readsBack (text_readsBack _))
      |>.seq (field_readsBack (SubTaskStates.codec_readsBack _))
      |>.seq (field_readsBack (Instant.codec_readsBack _))

/-- An execution is read back, with its measurements beside its own fields. -/
theorem Execution.codec_readsBack (execution : Execution) :
    codec.ReadsBack (room + 2) execution :=
  joined_readsBack
    ((field_readsBack (text_readsBack _)).map mk
      |>.seq (field_readsBack (Instant.codec_readsBack _))
      |>.seq (field_readsBack (bool_readsBack _))
      |>.seq (field_readsBack (TaskKind.codec_readsBack _))
      |>.seq (field_readsBack (Owner.codec_readsBack _))
      |>.seq (field_readsBack (SourceRole.codec_readsBack _))
      |>.seq (field_readsBack (text_readsBack _)))
    (Measurements.shape_readsBack _).via rfl (by decide)

/-- A latest record is read back, with its measurements beside its own fields. -/
theorem Latest.codec_readsBack (latest : Latest) : codec.ReadsBack (room + 2) latest :=
  joined_readsBack
    ((field_readsBack (text_readsBack _)).map mk
      |>.seq (field_readsBack (Instant.codec_readsBack _))
      |>.seq (field_readsBack (Instant.codec_readsBack _))
      |>.seq (field_readsBack (bool_readsBack _))
      |>.seq (field_readsBack (TaskKind.codec_readsBack _))
      |>.seq (field_readsBack (Owner.codec_readsBack _))
      |>.seq (field_readsBack (SourceRole.codec_readsBack _))
      |>.seq (field_readsBack (text_readsBack _))
      |>.seq (field_readsBack (text_readsBack _)))
    (Measurements.shape_readsBack _).via rfl (by decide)

/-! ## What is read -/

theorem Span.codec_yields : Span.codec.Yields Span.Whole := by
  intro source tree span given
  change ofMillis <$> Codec.word64.decode source tree = _ at given
  cases read : Codec.word64.decode source tree with
  | error refusal =>
      rw [read] at given
      cases given
  | ok millis =>
      rw [read] at given
      cases given
      exact whole_ofMillis millis

private theorem span_field_yields {σ : Type} {name : String} {get : σ → Span} :
    (Shape.defaulted name Span.codec get .zero).Yields Span.Whole :=
  field_yields Span.codec_yields (by rintro _ ⟨⟩; exact Span.whole_zero)
    (by rintro _ ⟨⟩; exact Span.whole_zero)

/-- Limits that were read are whole. -/
theorem Limits.codec_yields : Limits.codec.Yields Limits.Whole :=
  Shape.codec_yields
    (span_field_yields.map mk
        (fun _ connection _ _ _ retrieval _ _ _ processing _ _ =>
          ⟨connection, retrieval, processing⟩)
      |>.seq field_yields_true
      |>.seq span_field_yields
      |>.seq field_yields_true
      |>.seq span_field_yields
      |>.seq field_yields_true)

theorem limits_field_yields {σ : Type} {name : String} {get : σ → Limits} :
    (Shape.defaulted name Limits.codec get .unlimited).Yields Limits.Whole :=
  field_yields Limits.codec_yields (by rintro _ ⟨⟩; exact Limits.whole_unlimited)
    (by rintro _ ⟨⟩; exact Limits.whole_unlimited)

/-- The limits of a job that was read are whole. -/
theorem Job.codec_yields : Job.codec.Yields fun job => job.limits.Whole :=
  Shape.codec_yields
    (field_yields_true.map mk (by intros; assumption)
      |>.seq field_yields_true
      |>.seq field_yields_true
      |>.seq field_yields_true
      |>.seq field_yields_true
      |>.seq limits_field_yields
      |>.seq field_yields_true
      |>.seq field_yields_true)

end MediaHarvest
