import MediaHarvest.Proofs.Net.Address
import MediaHarvest.Proofs.Time.Millis
import MediaHarvest.Proofs.Wire.Fields
import MediaHarvest.Proofs.Wire.Keeping
import MediaHarvest.Wire.Records

/-!
# Reading back tasks and reports

Every message is read back as it was written, field by field.  A record becomes a message without
loss if its times are whole milliseconds, and every record that was read has such times; so what
was read once is read back from then on.
-/

namespace MediaHarvest

/-- A report whose times are whole milliseconds. -/
structure Completion.Whole (completion : Completion) : Prop where
  connect : completion.outcome.times.connect.Whole
  checking : completion.outcome.times.checking.Whole
  retrieval : completion.outcome.times.retrieval.Whole
  completedAt : completion.completedAt.Whole

/-- A task as records keep it, its limits in whole milliseconds. -/
def Task.inMillis (task : Task) : Task := { task with limits := task.limits.inMillis }

namespace Wire

open Wire.Field Wire.Message

/-! ## Messages -/

theorem limits_numbered : limits.WellNumbered := by
  decide

theorem limits_carries {depth : Nat} {value : Limits} (whole : value.Whole) :
    CarriesAll depth value limits.fields limits.empty value := by
  have carried : CarriesAll depth value limits.fields limits.empty
      { value with
        connectionTimeout := .ofMillis value.connectionTimeout.wholeMillis
        retrievalTime := .ofMillis value.retrievalTime.wholeMillis
        processingTime := .ofMillis value.processingTime.wholeMillis } :=
    .cons (word64_carries rfl) <| .cons (word64_carries rfl) <| .cons (word64_carries rfl) <|
      .cons (word32_carries rfl) <| .cons (word64_carries rfl) <| .cons (word64_carries rfl) <|
        .nil _
  rwa [Span.ofMillis_wholeMillis whole.connection, Span.ofMillis_wholeMillis whole.retrieval,
    Span.ofMillis_wholeMillis whole.processing] at carried

theorem owner_numbered : owner.WellNumbered := by
  decide

theorem owner_carries {depth : Nat} (value : Owner) :
    CarriesAll depth value owner.fields owner.empty value :=
  .cons (text_carries rfl) <| .cons (text_carries rfl) <| .cons (text_carries rfl) <|
    .cons (text_carries rfl) <| .nil _

theorem subTaskCodes_numbered : subTaskCodes.WellNumbered := by
  decide

theorem subTaskCodes_carries {depth : Nat} (value : SubTaskCodes) :
    CarriesAll depth value subTaskCodes.fields subTaskCodes.empty value :=
  .cons (code_carries rfl) <| .cons (code_carries rfl) <| .cons (code_carries rfl) <|
    .cons (code_carries rfl) <| .cons (code_carries rfl) <| .nil _

theorem taskMessage_numbered : taskMessage.WellNumbered := by
  decide

theorem taskMessage_carries {depth : Nat} (levels : 0 < depth) {value : TaskMessage}
    (whole : ∀ limits, value.limits = some limits → limits.Whole) :
    CarriesAll depth value taskMessage.fields taskMessage.empty value := by
  have carried : CarriesAll depth value taskMessage.fields taskMessage.empty
      { value with limits := value.limits.map id, owner := value.owner.map id } :=
    .cons (text_carries rfl) <| .cons (text_carries rfl) <| .cons (text_carries rfl) <|
      .cons (optionalText_carries (fun m v => { m with url := v }) rfl fun _ => rfl) <|
      .cons (code_carries rfl) <|
      .cons (message_carries (fun m v => { m with limits := v }) levels limits_numbered
        (fun part found => limits_carries (whole part found)) rfl rfl fun _ => rfl) <|
      .cons (map_carries levels (fun _ _ => rfl) (fun _ _ _ => rfl) rfl) <|
      .cons (codes_carries rfl rfl) <|
      .cons (message_carries (fun m v => { m with owner := v }) levels owner_numbered
        (fun part _ => owner_carries part) rfl rfl fun _ => rfl) <| .nil _
  rwa [Option.map_id_apply, Option.map_id_apply] at carried

theorem deadLetter_numbered : deadLetter.WellNumbered := by
  decide

theorem deadLetter_carries {depth : Nat} (levels : 1 < depth) {value : DeadLetter}
    (whole : ∀ task, value.task = some task →
      ∀ limits, task.limits = some limits → limits.Whole) :
    CarriesAll depth value deadLetter.fields deadLetter.empty value := by
  have carried : CarriesAll depth value deadLetter.fields deadLetter.empty
      { value with task := value.task.map id } :=
    .cons (message_carries (fun m v => { m with task := v }) (by omega) taskMessage_numbered
        (fun part found => taskMessage_carries (by omega) (whole part found)) rfl rfl
        fun _ => rfl) <|
      .cons (text_carries rfl) <| .cons (signed64_carries rfl) <| .nil _
  rwa [Option.map_id_apply] at carried

theorem completionMessage_numbered : completionMessage.WellNumbered := by
  decide

theorem completionMessage_carries {depth : Nat} (levels : 0 < depth) (value : CompletionMessage) :
    CarriesAll depth value completionMessage.fields completionMessage.empty value := by
  have carried : CarriesAll depth value completionMessage.fields completionMessage.empty
      { value with subTasks := value.subTasks.map id } := by
    refine .cons (text_carries rfl) <| .cons (text_carries rfl) <| .cons (text_carries rfl) <|
      .cons (code_carries rfl) <| .cons (code_carries rfl) <| ?_
    refine .cons (message_carries (fun m v => { m with subTasks := v }) levels
      subTaskCodes_numbered (fun part _ => subTaskCodes_carries part) rfl rfl fun _ => rfl) ?_
    refine .cons (code_carries rfl) <| .cons (codes_carries rfl rfl) <| ?_
    refine .cons (word64_carries rfl) <| ?_
    refine .cons (optionalWord32_carries (fun m v => { m with httpStatus := v }) rfl
      fun _ => rfl) <| ?_
    refine .cons (optionalText_carries (fun m v => { m with contentType := v }) rfl
      fun _ => rfl) <| ?_
    refine .cons (map_carries levels (fun _ _ => rfl) (fun _ _ _ => rfl) rfl) <| ?_
    refine .cons (optionalText_carries (fun m v => { m with sourceAddress := v }) rfl
      fun _ => rfl) <| ?_
    refine .cons (word64_carries rfl) <| .cons (word64_carries rfl) <|
      .cons (word64_carries rfl) <| ?_
    refine .cons (texts_carries (fun _ _ => rfl) (fun _ _ _ => rfl) rfl) <| ?_
    refine .cons (text_carries rfl) <| ?_
    refine .cons (optionalText_carries (fun m v => { m with storagePath := v }) rfl
      fun _ => rfl) <| ?_
    exact .cons (text_carries rfl) <| .cons (signed64_carries rfl) <| .nil _
  rwa [Option.map_id_apply] at carried

/-! ## Numbers of alternatives -/

/-- Every alternative is found under its number. -/
def Numbering.Faithful {α : Type} (numbering : Numbering α) : Prop :=
  ∀ value, numbering.ofCode (numbering.code value) = .ok value

theorem taskKinds_faithful : taskKinds.Faithful := by
  rintro ⟨⟩ <;> rfl

theorem retrievalStates_faithful : retrievalStates.Faithful := by
  rintro ⟨⟩ <;> rfl

theorem subTaskStates_faithful : subTaskStates.Faithful := by
  rintro ⟨⟩ <;> rfl

theorem subTasks_faithful : subTasks.Faithful := by
  rintro ⟨⟩ <;> rfl

theorem verdicts_faithful : verdicts.Faithful := by
  rintro ⟨⟩ <;> rfl

/-! ## Records -/

/-- The message of a task stands for it. -/
theorem TaskMessage.toTask_ofTask (task : Task) : toTask (ofTask task) = .ok task := by
  rw [toTask, ofTask, mapM_map_eq_ok subTasks_faithful, ok_bind, taskKinds_faithful]
  rfl

theorem SubTaskCodes.toStates_ofStates (states : SubTaskStates) :
    toStates (ofStates states) = .ok states := by
  simp only [toStates, ofStates, subTaskStates_faithful _, ok_bind]
  rfl

@[simp]
theorem readAddress_text (address : Option Address) :
    readAddress (address.map Address.text) = .ok address := by
  cases address with
  | none => rfl
  | some address => simp [readAddress]

theorem readTime_toMillis {instant : Instant} (whole : instant.Whole) :
    readTime (Int64.ofInt instant.toMillis) = .ok instant := by
  obtain ⟨low, high⟩ := instant.toMillis_bounds
  rw [readTime, Int64.toInt_ofInt_of_le low high, Instant.ofMillis?_toMillis whole]

@[simp]
theorem readStatus_toUInt32 (status : Option UInt16) :
    readStatus (status.map UInt16.toUInt32) = .ok status := by
  cases status with
  | none => rfl
  | some status =>
      have small : status.toUInt32 < 65536 := by
        rw [UInt32.lt_iff_toNat_lt, UInt16.toNat_toUInt32]
        exact status.toNat_lt
      simp [readStatus, small]

/-- A storage is told by the path of its file, if it has one. -/
theorem storage_of_path (storage : Storage) :
    (match
      (match storage with
        | .disk path => some path
        | .memory => none) with
      | some path => Storage.disk path
      | none => .memory) = storage := by
  cases storage <;> rfl

/-- The message of a report of whole milliseconds stands for it. -/
theorem CompletionMessage.toCompletion_ofCompletion {completion : Completion}
    (whole : completion.Whole) : toCompletion (ofCompletion completion) = .ok completion := by
  simp only [toCompletion, ofCompletion, mapM_map_eq_ok retrievalStates_faithful, ok_bind,
    readAddress_text, readTime_toMillis whole.completedAt, readStates,
    SubTaskCodes.toStates_ofStates, readStatus_toUInt32,
    retrievalStates_faithful _, taskKinds_faithful _, verdicts_faithful _,
    Span.ofMillis_wholeMillis whole.connect, Span.ofMillis_wholeMillis whole.checking,
    Span.ofMillis_wholeMillis whole.retrieval, pure_eq_ok]
  exact congrArg (fun storage => Except.ok
    { completion with outcome := { completion.outcome with storage := storage } })
    (storage_of_path completion.outcome.storage)

/-- The message of a task as records keep it has whole limits. -/
theorem whole_ofTask_inMillis (task : Task) :
    ∀ limits, (TaskMessage.ofTask task.inMillis).limits = some limits → limits.Whole := by
  rintro _ ⟨⟩
  exact task.limits.whole_inMillis

/-- The bytes of limits tell no more than their whole milliseconds. -/
theorem write_limits_inMillis (value : Limits) :
    limits.write value.inMillis = limits.write value := by
  simp only [Message.write, limits, List.flatMap_cons, List.flatMap_nil, word64, numeral,
    Limits.inMillis, Span.inMillis, Span.wholeMillis_ofMillis]
  rfl

/-- The bytes of a task tell no more than the task as records keep it. -/
theorem encodeTask_inMillis (task : Task) : encodeTask task.inMillis = encodeTask task := by
  rw [encodeTask, encodeTask, Message.write, Message.write]
  simp only [taskMessage, List.flatMap_cons, List.flatMap_nil, message, TaskMessage.ofTask,
    Task.inMillis, write_limits_inMillis]
  rfl

/-- Of the bytes of a task, the message of the task as records keep it is read. -/
theorem read_encodeTask {task : Task} (fits : (encodeTask task).length < 2 ^ 64) :
    taskMessage.read (encodeTask task) = .ok (.ofTask task.inMillis) := by
  rw [← encodeTask_inMillis] at fits ⊢
  exact read_write taskMessage_numbered
    (taskMessage_carries (by decide) (whole_ofTask_inMillis task)) fits

/-- A task is read back from its bytes as records keep it. -/
theorem decodeTask_encodeTask_inMillis {task : Task} (fits : (encodeTask task).length < 2 ^ 64) :
    decodeTask (encodeTask task) = .ok task.inMillis := by
  rw [decodeTask, read_encodeTask fits]
  exact TaskMessage.toTask_ofTask task.inMillis

/-- A task with whole limits is read back from its bytes. -/
theorem decodeTask_encodeTask {task : Task} (whole : task.limits.Whole)
    (fits : (encodeTask task).length < 2 ^ 64) : decodeTask (encodeTask task) = .ok task := by
  rw [decodeTask_encodeTask_inMillis fits, Task.inMillis, Limits.inMillis_of_whole whole]

/-- A report of whole milliseconds is read back from its bytes. -/
theorem decodeCompletion_encodeCompletion {completion : Completion} (whole : completion.Whole)
    (fits : (encodeCompletion completion).length < 2 ^ 64) :
    decodeCompletion (encodeCompletion completion) = .ok completion := by
  rw [decodeCompletion, encodeCompletion, read_write completionMessage_numbered
    (completionMessage_carries (by decide) _) fits]
  exact CompletionMessage.toCompletion_ofCompletion whole

/-- A report as records keep it, with its times in whole milliseconds and made at a whole one. -/
def keptAt (completion : Completion) (instant : Instant) : Completion :=
  let times := completion.outcome.times
  { completion with
    outcome := { completion.outcome with
      times := ⟨times.connect.inMillis, times.checking.inMillis, times.retrieval.inMillis⟩ }
    completedAt := instant }

/-- The bytes of a report tell no more than the report as records keep it. -/
theorem encodeCompletion_keptAt {completion : Completion} {instant : Instant}
    (same : instant.toMillis = completion.completedAt.toMillis) :
    encodeCompletion (keptAt completion instant) = encodeCompletion completion := by
  apply congrArg completionMessage.write
  simp only [CompletionMessage.ofCompletion, keptAt, Span.inMillis, Span.wholeMillis_ofMillis, same]

/-- A report that was not made in a leap second is read back as records keep it. -/
theorem decodeCompletion_of_plain {completion : Completion}
    (plain : completion.completedAt.Plain)
    (fits : (encodeCompletion completion).length < 2 ^ 64) :
    ∃ instant, decodeCompletion (encodeCompletion completion) = .ok (keptAt completion instant) := by
  rcases Instant.exists_whole plain with ⟨instant, whole, same⟩
  have bytes := encodeCompletion_keptAt same
  rw [← bytes] at fits ⊢
  have times : (keptAt completion instant).Whole :=
    ⟨Span.whole_ofMillis _, Span.whole_ofMillis _, Span.whole_ofMillis _, whole⟩
  exact ⟨instant, decodeCompletion_encodeCompletion times fits⟩

/-! ## What was read -/

theorem limits_keeps : ∀ field ∈ limits.fields, field.Keeps Limits.Whole := by
  simp only [limits, List.forall_mem_cons, List.not_mem_nil, IsEmpty.forall_iff, implies_true,
    and_true]
  refine ⟨numeral_keeps fun _ _ whole => ?_, numeral_keeps fun _ _ whole => ?_,
    numeral_keeps fun _ _ whole => ?_, numeral_keeps fun _ _ whole => ?_,
    numeral_keeps fun _ _ whole => ?_, numeral_keeps fun _ _ whole => ?_⟩
  · exact { whole with connection := Span.whole_ofMillis _ }
  · exact { whole with }
  · exact { whole with retrieval := Span.whole_ofMillis _ }
  · exact { whole with }
  · exact { whole with processing := Span.whole_ofMillis _ }
  · exact { whole with }

/-- The limits of a task that was read are whole. -/
theorem taskMessage_keeps : ∀ field ∈ taskMessage.fields,
    field.Keeps fun message => ∀ limits, message.limits = some limits → limits.Whole := by
  simp only [taskMessage, List.forall_mem_cons, List.not_mem_nil, IsEmpty.forall_iff, implies_true,
    and_true]
  refine ⟨text_keeps fun _ _ whole => whole, text_keeps fun _ _ whole => whole,
    text_keeps fun _ _ whole => whole, optionalText_keeps fun _ _ whole => whole,
    numeral_keeps fun _ _ whole => whole,
    message_keeps _ limits_keeps Limits.whole_unlimited (fun _ _ whole found => whole _ found) ?_,
    map_keeps fun _ _ whole => whole, codes_keeps fun _ _ whole => whole,
    message_keeps (fun _ => True) ?_ trivial (fun _ _ _ _ => trivial)
      fun _ _ whole _ => whole⟩
  · rintro _ limits _ whole _ ⟨⟩
    exact whole
  · intro field _ depth form before bytes after rest _ _
    trivial

/-- Every task that was read has whole limits. -/
theorem whole_of_decodeTask {bytes : Bytes} {task : Task} (read : decodeTask bytes = .ok task) :
    task.limits.Whole := by
  obtain ⟨message, fields, read⟩ := bind_eq_ok_iff.1 read
  have whole := read_holds taskMessage_keeps (fun _ none => by cases none)
    (mapError_eq_ok_iff.1 fields)
  obtain ⟨subTasks, _, read⟩ := bind_eq_ok_iff.1 read
  obtain ⟨kind, _, read⟩ := bind_eq_ok_iff.1 read
  cases read
  cases found : message.limits with
  | none => simpa [found] using Limits.whole_unlimited
  | some limits => simpa [found] using whole limits found

/-- Every report that was read has times of whole milliseconds. -/
theorem whole_of_decodeCompletion {bytes : Bytes} {completion : Completion}
    (read : decodeCompletion bytes = .ok completion) : completion.Whole := by
  obtain ⟨message, _, read⟩ := bind_eq_ok_iff.1 read
  obtain ⟨history, _, read⟩ := bind_eq_ok_iff.1 read
  obtain ⟨address, _, read⟩ := bind_eq_ok_iff.1 read
  obtain ⟨instant, time, read⟩ := bind_eq_ok_iff.1 read
  obtain ⟨states, _, read⟩ := bind_eq_ok_iff.1 read
  obtain ⟨status, _, read⟩ := bind_eq_ok_iff.1 read
  obtain ⟨state, _, read⟩ := bind_eq_ok_iff.1 read
  obtain ⟨kind, _, read⟩ := bind_eq_ok_iff.1 read
  obtain ⟨verdict, _, read⟩ := bind_eq_ok_iff.1 read
  cases read
  rw [readTime] at time
  split at time
  · next instant made =>
    cases time
    exact ⟨Span.whole_ofMillis _, Span.whole_ofMillis _, Span.whole_ofMillis _,
      Instant.whole_of_ofMillis? made⟩
  · cases time

/-! ## Nothing is lost -/

/-- The wire loses nothing: a task of whole milliseconds and a report of whole milliseconds are
read back from their bytes, and so is everything that was read from any bytes.  Lengths are words
of 64 bits, as is the size of anything in memory, so the bytes are fewer than their bound. -/
theorem decode_encode_records :
    (∀ task : Task, task.limits.Whole → (encodeTask task).length < 2 ^ 64 →
      decodeTask (encodeTask task) = .ok task) ∧
    (∀ completion : Completion, completion.Whole → (encodeCompletion completion).length < 2 ^ 64 →
      decodeCompletion (encodeCompletion completion) = .ok completion) ∧
    (∀ bytes task, decodeTask bytes = .ok task → (encodeTask task).length < 2 ^ 64 →
      decodeTask (encodeTask task) = .ok task) ∧
    (∀ bytes completion, decodeCompletion bytes = .ok completion →
      (encodeCompletion completion).length < 2 ^ 64 →
      decodeCompletion (encodeCompletion completion) = .ok completion) := by
  refine ⟨fun task whole fits => ?_, fun completion whole fits => ?_,
    fun bytes task read fits => ?_, fun bytes completion read fits => ?_⟩
  · exact decodeTask_encodeTask whole fits
  · exact decodeCompletion_encodeCompletion whole fits
  · exact decodeTask_encodeTask (whole_of_decodeTask read) fits
  · exact decodeCompletion_encodeCompletion (whole_of_decodeCompletion read) fits

/-- A task with an empty link, with empty texts, and with repetitions in its lists. -/
def linkTask : Task where
  id := "7#0"
  job := "7"
  resource := "photo"
  url := some ""
  kind := .checkLink
  limits := { Limits.unlimited with retrievalTime := .ofMillis 1500, redirects := 3 }
  previousHeaders := .ofList [("", "close"), ("etag", "")]
  subTasks := [.metaExtraction, .colorExtraction, .metaExtraction]
  owner := ⟨"provider", "", "", ""⟩

/-- A report on the task. -/
def linkReport : Completion where
  job := linkTask.job
  task := linkTask.id
  resource := linkTask.resource
  kind := linkTask.kind
  verdict := .success
  subTasks := ⟨.success, .skipped, .error, .neverExecuted, .neverExecuted⟩
  outcome := { Outcome.start .memory with
    state := .completed
    history := [.pending, .checkingExistence, .completed]
    httpStatus := some 204
    contentType := some ""
    headers := .ofList [("", "close")]
    sourceAddress := some (.v6 #v[0x2001, 0xdb8, 0, 0, 0, 1, 0, 0])
    times := ⟨.zero, .ofMillis 12, .zero⟩ }
  node := "node"
  completedAt := ⟨-1, 999000000, by decide, by decide, by decide⟩

theorem decode_encode_link :
    decodeTask (encodeTask linkTask) = .ok linkTask ∧
      decodeCompletion (encodeCompletion linkReport) = .ok linkReport := by
  have taskFits : (encodeTask linkTask).length < 2 ^ 64 := by decide +kernel
  have reportFits : (encodeCompletion linkReport).length < 2 ^ 64 := by decide +kernel
  have task := decode_encode_records.1 linkTask ⟨by decide, by decide, by decide⟩ taskFits
  have report := decode_encode_records.2.1 linkReport ⟨by decide, by decide, by decide, by decide⟩
    reportFits
  exact ⟨decode_encode_records.2.2.1 _ _ task taskFits,
    decode_encode_records.2.2.2 _ _ report reportFits⟩

end Wire

end MediaHarvest
