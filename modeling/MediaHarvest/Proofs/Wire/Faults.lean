import MediaHarvest.Proofs.Except
import MediaHarvest.Proofs.Wire.Records

/-!
# The first fault of a message

A message is a record exactly if every number in it stands for something and every text and time
can be read.  Otherwise the first fault is reported, in the order in which the parts of the message
are looked at, which is not that of its fields.  The message of the record is the message again,
but for the wording of its address and for parts that may be left out.
-/

namespace MediaHarvest.Wire

/-! ## Numbers of alternatives -/

/-- The fault of a number that lies outside of bounds. -/
def codeFaults (field : String) (low high : Int) (code : Int32) : List DecodeError :=
  faultUnless (low ≤ code.toInt ∧ code.toInt ≤ high) (.unknownVariant field code)

/-- The alternatives have the numbers from one bound to the other. -/
def Numbering.Covers {α : Type} (numbering : Numbering α) (low high : Int) : Prop :=
  ∀ number, number ∈ numbering.all.map (fun value => (numbering.code value).toInt) ↔
    low ≤ number ∧ number ≤ high

theorem Numbering.covers_of_consecutive {α : Type} {numbering : Numbering α} (low count : Nat)
    (consecutive : numbering.all.map (fun value => (numbering.code value).toInt) =
      (List.range' low count).map Int.ofNat) :
    numbering.Covers low (low + count - 1) := by
  intro number
  rw [consecutive, List.mem_map]
  constructor
  · rintro ⟨index, member, rfl⟩
    obtain ⟨lower, upper⟩ := List.mem_range'_1.1 member
    change (low : Int) ≤ index ∧ (index : Int) ≤ _
    omega
  · rintro ⟨lower, upper⟩
    exact ⟨number.toNat, List.mem_range'_1.2 (by omega), Int.toNat_of_nonneg (by omega)⟩

theorem taskKinds_covers : taskKinds.Covers 1 3 := Numbering.covers_of_consecutive 1 3 rfl

theorem retrievalStates_covers : retrievalStates.Covers 1 8 :=
  Numbering.covers_of_consecutive 1 8 rfl

theorem subTaskStates_covers : subTaskStates.Covers 0 3 := Numbering.covers_of_consecutive 0 4 rfl

theorem subTasks_covers : subTasks.Covers 1 4 := Numbering.covers_of_consecutive 1 4 rfl

theorem verdicts_covers : verdicts.Covers 1 2 := Numbering.covers_of_consecutive 1 2 rfl

/-- A number within the bounds gives the alternative that has it. -/
theorem Numbering.Covers.stopsAt {α : Type} {numbering : Numbering α} {low high : Int}
    (covers : numbering.Covers low high) (code : Int32) :
    StopsAt (codeFaults numbering.field low high code) (fun value => numbering.code value = code)
      (numbering.ofCode code) := by
  have member : low ≤ code.toInt ∧ code.toInt ≤ high ↔
      ∃ value ∈ numbering.all, numbering.code value = code := by
    rw [← covers, List.mem_map]
    simp only [Int32.toInt_inj]
  refine .of_condition (fun within => ?_) fun outside => ?_
  · obtain ⟨value, listed, same⟩ := member.1 within
    have some : (numbering.all.find? fun value => numbering.code value = code).isSome :=
      List.find?_isSome.2 ⟨value, listed, decide_eq_true same⟩
    obtain ⟨first, found⟩ := Option.isSome_iff_exists.1 some
    refine ⟨first, ?_, by simpa using List.find?_some found⟩
    rw [Numbering.ofCode, found]
  · have missing : (numbering.all.find? fun value => numbering.code value = code) = none :=
      List.find?_eq_none.2 fun value listed same =>
        outside (member.2 ⟨value, listed, of_decide_eq_true same⟩)
    rw [Numbering.ofCode, missing]

/-! ## Parts of a report -/

/-- An address is worded anew. -/
def canonicalAddress (text : String) : String :=
  match Address.parse? text with
  | some address => address.text
  | none => text

def addressFaults (text : String) : List DecodeError :=
  faultUnless (Address.parse? text).isSome (.invalidAddress text)

theorem stopsAt_readAddress (text : Option String) :
    StopsAt (text.toList.flatMap addressFaults)
      (fun address => address.map Address.text = text.map canonicalAddress) (readAddress text) := by
  cases text with
  | none => exact .ok rfl
  | some text =>
      rw [Option.toList_some, List.flatMap_singleton]
      refine .of_condition (fun valid => ?_) fun invalid => ?_
      · obtain ⟨address, parsed⟩ := Option.isSome_iff_exists.1 valid
        refine ⟨some address, by rw [readAddress, parsed], ?_⟩
        rw [Option.map_some, Option.map_some, canonicalAddress, parsed]
      · rw [readAddress, Option.not_isSome_iff_eq_none.1 invalid]

def timeFaults (millis : Int64) : List DecodeError :=
  faultUnless (firstSecond * 1000 ≤ millis.toInt ∧ millis.toInt ≤ lastSecond * 1000 + 999)
    (.invalidTimestamp millis)

theorem stopsAt_readTime (millis : Int64) :
    StopsAt (timeFaults millis) (fun instant => Int64.ofInt instant.toMillis = millis)
      (readTime millis) := by
  refine .of_condition (fun within => ?_) fun outside => ?_
  · obtain ⟨instant, made⟩ := Instant.exists_ofMillis?_iff.2 within
    refine ⟨instant, by rw [readTime, made], ?_⟩
    rw [Instant.toMillis_of_ofMillis? made, Int64.ofInt_toInt]
  · have missing : Instant.ofMillis? millis.toInt = none :=
      Option.eq_none_iff_forall_ne_some.2 fun instant made =>
        outside (Instant.exists_ofMillis?_iff.1 ⟨instant, made⟩)
    rw [readTime, missing]

/-- The fault of a status that is no word of 16 bits carries its bits as a signed number. -/
def statusFaults (status : UInt32) : List DecodeError :=
  faultUnless (status ≤ 65535) (.unknownVariant "http_status" status.toInt32)

/-- As a signed number, the lower half of the statuses stays as it is, and the upper half comes below
zero. -/
theorem toInt_toInt32 (status : UInt32) :
    status.toInt32.toInt =
      if status.toNat < 2 ^ 31 then (status.toNat : Int) else status.toNat - 2 ^ 32 := by
  change status.toBitVec.toInt = _
  rw [BitVec.toInt_eq_toNat_cond]
  change (if 2 * status.toNat < 2 ^ 32 then _ else _) = _
  split
  · rw [if_pos (by omega)]
    rfl
  · rw [if_neg (by omega)]
    rfl

theorem stopsAt_readStatus (status : Option UInt32) :
    StopsAt (status.toList.flatMap statusFaults)
      (fun word => word.map UInt16.toUInt32 = status) (readStatus status) := by
  cases status with
  | none => exact .ok rfl
  | some status =>
      rw [Option.toList_some, List.flatMap_singleton]
      have bounds : status ≤ 65535 ↔ status < 65536 := by
        rw [UInt32.lt_iff_toNat_lt, UInt32.le_iff_toNat_le]
        exact Nat.lt_succ_iff.symm
      refine .of_condition (fun small => ?_) fun large => ?_
      · refine ⟨some status.toUInt16, if_pos (bounds.1 small), ?_⟩
        refine congrArg some (UInt32.toNat_inj.1 ?_)
        rw [UInt16.toNat_toUInt32, UInt32.toNat_toUInt16]
        exact Nat.mod_eq_of_lt (UInt32.lt_iff_toNat_lt.1 (bounds.1 small))
      · exact if_neg (mt bounds.2 large)

/-- The numbers of the sub-tasks, in the order in which they are looked at. -/
def SubTaskCodes.all (codes : SubTaskCodes) : List Int32 :=
  [codes.retrieve, codes.colorExtraction, codes.metaExtraction, codes.thumbnailGeneration,
    codes.thumbnailStorage]

def SubTaskCodes.faults (codes : SubTaskCodes) : List DecodeError :=
  codes.all.flatMap (codeFaults "sub_task_state" 0 3)

theorem SubTaskCodes.stopsAt_toStates (codes : SubTaskCodes) :
    StopsAt codes.faults (fun states => ofStates states = codes) codes.toStates := by
  have each := subTaskStates_covers.stopsAt
  refine (each _).bind fun retrieve first => (each _).bind fun color second =>
    (each _).bind fun metas third => (each _).bind fun generation fourth =>
    (each _).bind fun storage fifth => .ok ?_
  rw [ofStates, first, second, third, fourth, fifth]

def stateFaults : Option SubTaskCodes → List DecodeError
  | none => [.missingField "sub_task_stats"]
  | some codes => codes.faults

@[simp]
theorem stateFaults_eq_nil_iff {codes : Option SubTaskCodes} :
    stateFaults codes = [] ↔ ∃ given, codes = some given ∧
      ∀ code ∈ given.all, 0 ≤ code.toInt ∧ code.toInt ≤ 3 := by
  cases codes with
  | none => simp [stateFaults]
  | some codes => simp [stateFaults, SubTaskCodes.faults, codeFaults]

theorem stopsAt_readStates (codes : Option SubTaskCodes) :
    StopsAt (stateFaults codes) (fun states => some (.ofStates states) = codes)
      (readStates codes) := by
  cases codes with
  | none => rfl
  | some codes => exact codes.stopsAt_toStates.imp fun _ => congrArg some

/-! ## Records -/

/-- The faults of a report, in the order in which they are looked for. -/
def CompletionMessage.faults (message : CompletionMessage) : List DecodeError :=
  [message.history.flatMap (codeFaults "retrieving_state" 1 8),
    message.sourceAddress.toList.flatMap addressFaults,
    timeFaults message.completedAtMillis,
    stateFaults message.subTasks,
    message.httpStatus.toList.flatMap statusFaults,
    codeFaults "retrieving_state" 1 8 message.state,
    codeFaults "task_type" 1 3 message.kind,
    codeFaults "processing_state" 1 2 message.verdict].flatten

/-- A report of which everything stands for something. -/
structure CompletionMessage.Sound (message : CompletionMessage) : Prop where
  history : ∀ code ∈ message.history, 1 ≤ code.toInt ∧ code.toInt ≤ 8
  source : ∀ text, message.sourceAddress = some text → (Address.parse? text).isSome
  completedAt : firstSecond * 1000 ≤ message.completedAtMillis.toInt ∧
    message.completedAtMillis.toInt ≤ lastSecond * 1000 + 999
  subTasks : ∃ codes, message.subTasks = some codes ∧
    ∀ code ∈ codes.all, 0 ≤ code.toInt ∧ code.toInt ≤ 3
  status : ∀ status, message.httpStatus = some status → status ≤ 65535
  state : 1 ≤ message.state.toInt ∧ message.state.toInt ≤ 8
  kind : 1 ≤ message.kind.toInt ∧ message.kind.toInt ≤ 3
  verdict : 1 ≤ message.verdict.toInt ∧ message.verdict.toInt ≤ 2

/-- A report with its address worded anew. -/
def CompletionMessage.canonical (message : CompletionMessage) : CompletionMessage :=
  { message with sourceAddress := message.sourceAddress.map canonicalAddress }

theorem CompletionMessage.stopsAt_toCompletion (message : CompletionMessage) :
    StopsAt message.faults (fun completion => ofCompletion completion = message.canonical)
      message.toCompletion := by
  rw [faults, toCompletion]
  simp only [List.flatten_cons]
  -- One step for each part, in the order of the faults; each says what its value is sent as.
  refine (StopsAt.mapM retrievalStates_covers.stopsAt _).bind fun history sameHistory => ?_
  refine (stopsAt_readAddress _).bind fun address sameAddress => ?_
  refine (stopsAt_readTime _).bind fun instant sameTime => ?_
  refine (stopsAt_readStates _).bind fun states sameStates => ?_
  refine (stopsAt_readStatus _).bind fun status sameStatus => ?_
  refine (retrievalStates_covers.stopsAt _).bind fun state sameState => ?_
  refine (taskKinds_covers.stopsAt _).bind fun kind sameKind => ?_
  refine (verdicts_covers.stopsAt _).bind fun verdict sameVerdict => ?_
  refine .ok ?_
  rw [ofCompletion, canonical]
  simp only [sameHistory, sameAddress, sameTime, sameStates, sameStatus, sameState, sameKind,
    sameVerdict, Span.wholeMillis_ofMillis]
  cases message.storagePath <;> rfl

theorem CompletionMessage.faults_eq_nil_iff (message : CompletionMessage) :
    message.faults = [] ↔ message.Sound := by
  simp only [faults, List.flatten_cons, List.flatten_nil, List.append_eq_nil_iff,
    List.flatMap_eq_nil_iff, Option.mem_toList, codeFaults, addressFaults, timeFaults,
    stateFaults_eq_nil_iff, statusFaults, faultUnless_eq_nil_iff]
  constructor
  · rintro ⟨history, source, completedAt, subTasks, status, state, kind, verdict, _⟩
    exact ⟨history, source, completedAt, subTasks, status, state, kind, verdict⟩
  · rintro ⟨history, source, completedAt, subTasks, status, state, kind, verdict⟩
    exact ⟨history, source, completedAt, subTasks, status, state, kind, verdict, trivial⟩

/-- Only a status has the fault of a status. -/
theorem CompletionMessage.status_of_mem_faults (message : CompletionMessage) {value : Int32}
    (mem : .unknownVariant "http_status" value ∈ message.faults) :
    ∃ status, message.httpStatus = some status ∧ 65535 < status ∧ value = status.toInt32 := by
  have states : .unknownVariant "http_status" value ∉ stateFaults message.subTasks := by
    cases message.subTasks with
    | none => simp [stateFaults]
    | some codes => simp [stateFaults, SubTaskCodes.faults, codeFaults]
  simp only [faults, List.flatten_cons, List.flatten_nil, List.append_nil, List.mem_append, states,
    List.mem_flatMap, Option.mem_toList, codeFaults, addressFaults, timeFaults, statusFaults,
    mem_faultUnless_iff, DecodeError.unknownVariant.injEq, reduceCtorEq, String.reduceEq,
    false_and, and_false, exists_false, or_false, false_or, true_and] at mem
  obtain ⟨status, given, large, same⟩ := mem
  exact ⟨status, given, UInt32.not_le.1 large, same⟩

/-- The faults of a task, in the order in which they are looked for. -/
def TaskMessage.faults (message : TaskMessage) : List DecodeError :=
  message.subTasks.flatMap (codeFaults "sub_task" 1 4) ++ codeFaults "task_type" 1 3 message.kind

/-- A task of which every number stands for something. -/
structure TaskMessage.Sound (message : TaskMessage) : Prop where
  subTasks : ∀ code ∈ message.subTasks, 1 ≤ code.toInt ∧ code.toInt ≤ 4
  kind : 1 ≤ message.kind.toInt ∧ message.kind.toInt ≤ 3

/-- A task with nothing left out: without limits it is unlimited, and without an owner that is
empty. -/
def TaskMessage.canonical (message : TaskMessage) : TaskMessage :=
  { message with
    limits := some (message.limits.getD .unlimited)
    owner := some (message.owner.getD ⟨"", "", "", ""⟩) }

theorem TaskMessage.stopsAt_toTask (message : TaskMessage) :
    StopsAt message.faults (fun task => ofTask task = message.canonical) message.toTask := by
  rw [faults, toTask]
  refine (StopsAt.mapM subTasks_covers.stopsAt _).bind fun subTasks sameSubTasks => ?_
  refine (taskKinds_covers.stopsAt _).last fun kind sameKind => ?_
  rw [ofTask, canonical]
  simp only [sameSubTasks, sameKind]
  rfl

theorem TaskMessage.faults_eq_nil_iff (message : TaskMessage) :
    message.faults = [] ↔ message.Sound := by
  simp only [faults, List.append_eq_nil_iff, List.flatMap_eq_nil_iff, codeFaults,
    faultUnless_eq_nil_iff]
  constructor
  · rintro ⟨subTasks, kind⟩
    exact ⟨subTasks, kind⟩
  · rintro ⟨subTasks, kind⟩
    exact ⟨subTasks, kind⟩

/-! ## Failing closed -/

/-- How a message becomes a record: if it is sound, with the message of the record nearly the same,
and otherwise not at all, for the first of its faults. -/
structure FailsClosed {μ ρ : Type} (sound : Prop) (faults : List DecodeError) (canonical : μ)
    (again : ρ → μ) (read : Except DecodeError ρ) : Prop where
  succeeds_iff : (∃ record, read = .ok record) ↔ sound
  kept : ∀ record, read = .ok record → again record = canonical
  fails_iff : ∀ fault, read = .error fault ↔ faults.head? = some fault

theorem FailsClosed.of_stopsAt {μ ρ : Type} {sound : Prop} {faults : List DecodeError}
    {canonical : μ} {again : ρ → μ} {read : Except DecodeError ρ} (stopsAt :
      StopsAt faults (fun record => again record = canonical) read)
    (faultless : faults = [] ↔ sound) : FailsClosed sound faults canonical again read where
  succeeds_iff := stopsAt.ok_iff.trans faultless
  kept _ given := stopsAt.holds_of_ok given
  fails_iff := stopsAt.error_iff

/-- Reports and tasks are read only if all of them is sound, and otherwise the first fault is told.
It tells what is amiss as it was sent, but for a status in the upper half. -/
theorem failsClosed_messages (report : CompletionMessage) (task : TaskMessage) :
    FailsClosed report.Sound report.faults report.canonical CompletionMessage.ofCompletion
      report.toCompletion ∧
    FailsClosed task.Sound task.faults task.canonical TaskMessage.ofTask task.toTask ∧
    ∀ value, report.toCompletion = .error (.unknownVariant "http_status" value) →
      ∃ status, report.httpStatus = some status ∧ 65535 < status ∧
        (value.toInt = status.toNat ↔ status.toNat < 2 ^ 31) := by
  have closed : FailsClosed report.Sound report.faults report.canonical
      CompletionMessage.ofCompletion report.toCompletion :=
    .of_stopsAt report.stopsAt_toCompletion report.faults_eq_nil_iff
  refine ⟨closed, .of_stopsAt task.stopsAt_toTask task.faults_eq_nil_iff, fun value failed => ?_⟩
  obtain ⟨status, given, large, rfl⟩ :=
    report.status_of_mem_faults (List.mem_of_mem_head? ((closed.fails_iff _).1 failed))
  refine ⟨status, given, large, ?_⟩
  have small := status.toNat_lt
  rw [toInt_toInt32]
  split <;> omega

/-- A report of which nothing but the status is amiss. -/
def strayReport : CompletionMessage :=
  { completionMessage.empty with
    kind := 1
    verdict := 1
    subTasks := some ⟨0, 0, 0, 0, 0⟩
    state := 5
    httpStatus := some 4294967295 }

/-- The bytes of that report. -/
def strayBytes : Bytes := [32, 1, 40, 1, 50, 0, 56, 5, 80, 255, 255, 255, 255, 15]

/-- A status in the upper half is told as a number that was never sent. -/
theorem strayReport_misstated :
    completionMessage.read strayBytes = .ok strayReport ∧
      decodeCompletion strayBytes = .error (.unknownVariant "http_status" (-1)) ∧
      ¬ ∀ (message : CompletionMessage) (status : UInt32) (value : Int32),
        message.httpStatus = some status →
        message.toCompletion = .error (.unknownVariant "http_status" value) →
        value.toInt = status.toNat := by
  refine ⟨by decide +kernel, by decide +kernel, fun told => ?_⟩
  have same := told strayReport 4294967295 (-1) rfl (by decide +kernel)
  exact absurd same (by decide)

end MediaHarvest.Wire
