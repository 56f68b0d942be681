import MediaHarvest.ByteSize
import MediaHarvest.Job.Basic
import MediaHarvest.Proofs.Ledger.Codecs
import MediaHarvest.Sink.Basic

/-!
# Stable codecs

A text may be read that nothing here would write: members may come in any order or be left out,
structures may be lists, instants may have any offset, and sizes may be texts with a unit.  A codec
is stable if the value that was read from such a text is written as a text that is read as the same
value.  Then a record that was stored once is never lost by storing it again.

What can be read at all is restricted in one way only: spans are whole milliseconds.
-/

namespace MediaHarvest.Json.Codec

variable {α : Type}

/-- Reads a text and writes the value again. -/
def rewrite (codec : Codec α) (text : Bytes) : Except Refusal Bytes :=
  codec.writeText <$> codec.readText text

/-- A codec that can read exactly the values with a property, and keeps every one of them. -/
structure Stable (codec : Codec α) (readable : α → Prop) : Prop where
  /-- These are the values that some text is read as. -/
  readable_iff : ∀ value, readable value ↔ ∃ text, codec.readText text = .ok value
  /-- What is written of a value that was read is read as this value. -/
  again : ∀ {text value}, codec.readText text = .ok value →
    codec.readText (codec.writeText value) = .ok value
  /-- What was written again stays as it is, byte for byte. -/
  settled : ∀ {text written}, codec.rewrite text = .ok written →
    codec.rewrite written = .ok written

/-- A codec is stable if it reads back all values with a property and yields no others. -/
theorem stable_of_yields {codec : Codec α} {readable : α → Prop}
    (back : ∀ value, readable value → codec.ReadsBack 127 value) (yields : codec.Yields readable) :
    codec.Stable readable := by
  have again : ∀ {text value}, codec.readText text = .ok value →
      codec.readText (codec.writeText value) = .ok value :=
    fun read => (back _ (yields.of_readText read)).readText
  refine ⟨fun value => ?_, again, fun {text written} rewritten => ?_⟩
  · constructor
    · intro given
      exact ⟨codec.writeText value, (back value given).readText⟩
    · rintro ⟨text, read⟩
      exact yields.of_readText read
  · cases read : codec.readText text with
    | error refusal =>
        rw [rewrite, read] at rewritten
        cases rewritten
    | ok value =>
        rw [rewrite, read] at rewritten
        cases rewritten
        rw [rewrite, again read]
        rfl

/-- A codec is stable if it reads back everything. -/
theorem stable_of_readsBack {codec : Codec α} (back : ∀ value, codec.ReadsBack 127 value) :
    codec.Stable fun _ => True :=
  stable_of_yields (fun value _ => back value) fun _ _ _ _ => trivial

end MediaHarvest.Json.Codec

namespace MediaHarvest

open Json Json.Codec Json.Shape

variable {room : Nat}

/-! ## Sizes and locations -/

/-- A size is written as a number of bytes, whatever it was read from. -/
theorem ByteSize.codec_readsBack (size : ByteSize) : codec.ReadsBack room size := by
  refine ⟨natural_fits size.bytes.toNat_lt, fun source => ?_⟩
  have given : (0 : Int) ≤ size.bytes.toNat := by omega
  show decode source (.number (some (.integer size.bytes.toNat))) = _
  rw [decode, if_pos given, Int.toNat_natCast, UInt64.ofNat_toNat]
  rfl

theorem SinkKind.codec_readsBack (kind : SinkKind) : codec.ReadsBack room kind :=
  choice_readsBack (by cases kind <;> rfl)

/-- A location is read back, with its path beside its kind. -/
theorem Storage.codec_readsBack (storage : Storage) : codec.ReadsBack (room + 1) storage := by
  cases storage with
  | disk path =>
      refine ⟨⟨Nat.succ_ne_zero _, trivial, trivial, trivial⟩, fun source => ?_⟩
      cases source <;> rfl
  | memory =>
      refine ⟨⟨Nat.succ_ne_zero _, trivial, trivial⟩, fun source => ?_⟩
      cases source <;> rfl

/-! ## Outcomes, tasks and reports -/

/-- Times of whole milliseconds. -/
structure PhaseTimes.Whole (times : PhaseTimes) : Prop where
  connect : times.connect.Whole
  checking : times.checking.Whole
  retrieval : times.retrieval.Whole

theorem PhaseTimes.codec_readsBack {times : PhaseTimes} (whole : times.Whole) :
    codec.ReadsBack (room + 1) times :=
  Shape.codec_readsBack
    ((field_readsBack (Span.codec_readsBack whole.connect)).map mk
      |>.seq (field_readsBack (Span.codec_readsBack whole.checking))
      |>.seq (field_readsBack (Span.codec_readsBack whole.retrieval)))
    (by decide)

/-- Times that were read are whole. -/
theorem PhaseTimes.codec_yields : PhaseTimes.codec.Yields PhaseTimes.Whole :=
  Shape.codec_yields
    ((required_yields Span.codec_yields).map mk
        (fun _ connect _ checking _ retrieval => ⟨connect, checking, retrieval⟩)
      |>.seq (required_yields Span.codec_yields)
      |>.seq (required_yields Span.codec_yields))

/-- An outcome with whole times is read back. -/
theorem Outcome.codec_readsBack {outcome : Outcome} (whole : outcome.times.Whole) :
    codec.ReadsBack (room + 2) outcome :=
  Shape.codec_readsBack
    ((field_readsBack (RetrievalState.codec_readsBack _)).map mk
      |>.seq (field_readsBack (list_readsBack fun _ _ => RetrievalState.codec_readsBack _))
      |>.seq (field_readsBack (word64_readsBack _))
      |>.seq (field_readsBack (option_readsBack (fun _ _ => word16_readsBack _) (by rintro _ _ ⟨⟩)))
      |>.seq (field_readsBack (option_readsBack (fun _ _ => text_readsBack _) (by rintro _ _ ⟨⟩)))
      |>.seq (field_readsBack (map_readsBack fun _ _ => text_readsBack _))
      |>.seq (field_readsBack
        (option_readsBack (fun _ _ => Address.codec_readsBack _) (by rintro _ _ ⟨⟩)))
      |>.seq (field_readsBack (PhaseTimes.codec_readsBack whole))
      |>.seq (field_readsBack (list_readsBack fun _ _ => text_readsBack _))
      |>.seq (field_readsBack (text_readsBack _))
      |>.seq (field_readsBack (Storage.codec_readsBack _)))
    (by decide)

/-- The times of an outcome that was read are whole. -/
theorem Outcome.codec_yields : Outcome.codec.Yields fun outcome => outcome.times.Whole :=
  Shape.codec_yields
    (field_yields_true.map mk (by intros; assumption)
      |>.seq field_yields_true
      |>.seq field_yields_true
      |>.seq field_yields_true
      |>.seq field_yields_true
      |>.seq field_yields_true
      |>.seq field_yields_true
      |>.seq (required_yields PhaseTimes.codec_yields)
      |>.seq field_yields_true
      |>.seq field_yields_true
      |>.seq field_yields_true)

/-- A task with whole limits is read back. -/
theorem Task.codec_readsBack {task : Task} (whole : task.limits.Whole) :
    codec.ReadsBack (room + 2) task :=
  Shape.codec_readsBack
    ((field_readsBack (text_readsBack _)).map mk
      |>.seq (field_readsBack (text_readsBack _))
      |>.seq (field_readsBack (text_readsBack _))
      |>.seq (field_readsBack (option_readsBack (fun _ _ => text_readsBack _) (by rintro _ _ ⟨⟩)))
      |>.seq (field_readsBack (TaskKind.codec_readsBack _))
      |>.seq (field_readsBack (Limits.codec_readsBack whole))
      |>.seq (field_readsBack (map_readsBack fun _ _ => text_readsBack _))
      |>.seq (field_readsBack (list_readsBack fun _ _ => SubTask.codec_readsBack _))
      |>.seq (field_readsBack (Owner.codec_readsBack _)))
    (by decide)

/-- The limits of a task that was read are whole. -/
theorem Task.codec_yields : Task.codec.Yields fun task => task.limits.Whole :=
  Shape.codec_yields
    (field_yields_true.map mk (by intros; assumption)
      |>.seq field_yields_true
      |>.seq field_yields_true
      |>.seq field_yields_true
      |>.seq field_yields_true
      |>.seq (required_yields Limits.codec_yields)
      |>.seq field_yields_true
      |>.seq field_yields_true
      |>.seq field_yields_true)

/-- A report whose outcome has whole times is read back. -/
theorem Completion.codec_readsBack {completion : Completion}
    (whole : completion.outcome.times.Whole) : codec.ReadsBack (room + 3) completion :=
  Shape.codec_readsBack
    ((field_readsBack (text_readsBack _)).map mk
      |>.seq (field_readsBack (text_readsBack _))
      |>.seq (field_readsBack (text_readsBack _))
      |>.seq (field_readsBack (TaskKind.codec_readsBack _))
      |>.seq (field_readsBack (Verdict.codec_readsBack _))
      |>.seq (field_readsBack (SubTaskStates.codec_readsBack _))
      |>.seq (field_readsBack (Outcome.codec_readsBack whole))
      |>.seq (field_readsBack (text_readsBack _))
      |>.seq (field_readsBack (Instant.codec_readsBack _)))
    (by decide)

/-- The times of a report that was read are whole. -/
theorem Completion.codec_yields :
    Completion.codec.Yields fun completion => completion.outcome.times.Whole :=
  Shape.codec_yields
    (field_yields_true.map mk (by intros; assumption)
      |>.seq field_yields_true
      |>.seq field_yields_true
      |>.seq field_yields_true
      |>.seq field_yields_true
      |>.seq field_yields_true
      |>.seq (required_yields Outcome.codec_yields)
      |>.seq field_yields_true
      |>.seq field_yields_true)

/-! ## All of them -/

/-- Every type that is stored or shown has a stable codec. -/
theorem codecs_stable :
    Job.codec.Stable (fun job => job.limits.Whole) ∧
    PlannedTask.codec.Stable (fun _ => True) ∧
    Resource.codec.Stable (fun _ => True) ∧
    Owner.codec.Stable (fun _ => True) ∧
    Limits.codec.Stable Limits.Whole ∧
    PhaseTimes.codec.Stable PhaseTimes.Whole ∧
    Storage.codec.Stable (fun _ => True) ∧
    Outcome.codec.Stable (fun outcome => outcome.times.Whole) ∧
    Task.codec.Stable (fun task => task.limits.Whole) ∧
    SubTaskStates.codec.Stable (fun _ => True) ∧
    Completion.codec.Stable (fun completion => completion.outcome.times.Whole) ∧
    Execution.codec.Stable (fun _ => True) ∧
    Latest.codec.Stable (fun _ => True) ∧
    ByteSize.codec.Stable (fun _ => True) ∧
    TaskKind.codec.Stable (fun _ => True) ∧
    SourceRole.codec.Stable (fun _ => True) ∧
    JobState.codec.Stable (fun _ => True) ∧
    TaskState.codec.Stable (fun _ => True) ∧
    Verdict.codec.Stable (fun _ => True) ∧
    SubTask.codec.Stable (fun _ => True) ∧
    SubTaskState.codec.Stable (fun _ => True) ∧
    RetrievalState.codec.Stable (fun _ => True) ∧
    SinkKind.codec.Stable (fun _ => True) :=
  ⟨stable_of_yields (fun _ whole => Job.codec_readsBack whole) Job.codec_yields,
    stable_of_readsBack PlannedTask.codec_readsBack,
    stable_of_readsBack Resource.codec_readsBack,
    stable_of_readsBack Owner.codec_readsBack,
    stable_of_yields (fun _ whole => Limits.codec_readsBack whole) Limits.codec_yields,
    stable_of_yields (fun _ whole => PhaseTimes.codec_readsBack whole) PhaseTimes.codec_yields,
    stable_of_readsBack Storage.codec_readsBack,
    stable_of_yields (fun _ whole => Outcome.codec_readsBack whole) Outcome.codec_yields,
    stable_of_yields (fun _ whole => Task.codec_readsBack whole) Task.codec_yields,
    stable_of_readsBack SubTaskStates.codec_readsBack,
    stable_of_yields (fun _ whole => Completion.codec_readsBack whole) Completion.codec_yields,
    stable_of_readsBack Execution.codec_readsBack,
    stable_of_readsBack Latest.codec_readsBack,
    stable_of_readsBack ByteSize.codec_readsBack,
    stable_of_readsBack TaskKind.codec_readsBack,
    stable_of_readsBack SourceRole.codec_readsBack,
    stable_of_readsBack JobState.codec_readsBack,
    stable_of_readsBack TaskState.codec_readsBack,
    stable_of_readsBack Verdict.codec_readsBack,
    stable_of_readsBack SubTask.codec_readsBack,
    stable_of_readsBack SubTaskState.codec_readsBack,
    stable_of_readsBack RetrievalState.codec_readsBack,
    stable_of_readsBack SinkKind.codec_readsBack⟩

end MediaHarvest
