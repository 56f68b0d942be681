import MediaHarvest.Proofs.Ledger.Executions
import MediaHarvest.Proofs.Ledger.Readable
import Mathlib.Data.List.Dedup

/-!
# The history of executions

Reports come in one after another, in any order and any number of times, and each is recorded.  The
history keeps the first execution that was told of for every slot: nothing is put in its place, and
what was stored of it stays byte for byte.  A report on an unknown job changes nothing at all.
-/

namespace MediaHarvest

open MediaHarvest.Partition

/-! ## What is told -/

/-- A report, and when it comes in. -/
structure Arrival where
  completion : Completion
  now : Instant

/-- The slot of the execution that a report tells of. -/
def Completion.slot (completion : Completion) : Slot :=
  ⟨completion.resource, completion.job, completion.kind⟩

section First

variable {executions : List Execution} {execution : Execution} {slot : Slot}

theorem firstFor_append (first second : List Execution) :
    firstFor slot (first ++ second) = (firstFor slot first).or (firstFor slot second) :=
  List.find?_append

/-- Under a key that is taken already, a further execution is not the first one. -/
theorem firstUnder_append_of_some {known : Execution}
    (found : firstUnder executions execution.slot.key = some known) :
    firstUnder (executions ++ [execution]) = firstUnder executions := by
  funext key
  rw [firstUnder, List.find?_append, List.find?_singleton]
  by_cases same : execution.slot.key = key
  · subst same
    change (firstUnder executions execution.slot.key).or _ = _
    rw [found]
    rfl
  · rw [if_neg (by simpa using same), Option.or_none]
    rfl

/-- Under a key that is free, it is. -/
theorem firstUnder_append_of_none (free : firstUnder executions execution.slot.key = none) :
    firstUnder (executions ++ [execution]) =
      Function.update (firstUnder executions) execution.slot.key (some execution) := by
  funext key
  rw [firstUnder, List.find?_append, List.find?_singleton, Function.update_apply]
  by_cases same : execution.slot.key = key
  · subst same
    change (firstUnder executions execution.slot.key).or _ = _
    rw [free, if_pos (by simp), if_pos rfl]
    rfl
  · rw [if_neg (by simpa using same), Option.or_none, if_neg (Ne.symm same)]
    rfl

end First

namespace Ledger

variable {start ledger middle : Ledger} {arrival : Arrival} {arrivals : List Arrival}
  {execution : Execution} {told : List Execution}

/-- The ledger after an arrival was recorded. -/
def receive (ledger : Ledger) (arrival : Arrival) : Ledger :=
  (ledger.record arrival.completion arrival.now).1

/-- The answer to an arrival. -/
def answer (ledger : Ledger) (arrival : Arrival) : Except RecordingError Recording :=
  (ledger.record arrival.completion arrival.now).2

/-- The ledger after arrivals were recorded one after another. -/
def receiveAll (arrivals : List Arrival) (ledger : Ledger) : Ledger :=
  arrivals.foldl receive ledger

/-- The execution that an arrival tells a ledger of. -/
def told? (ledger : Ledger) (arrival : Arrival) : Option Execution :=
  (ledger.prepare arrival.completion arrival.now).toOption.map Prod.fst

/-- The executions that arrivals tell of one after another. -/
def toldAll : List Arrival → Ledger → List Execution
  | [], _ => []
  | arrival :: rest, ledger =>
      (ledger.told? arrival).toList ++ toldAll rest (ledger.receive arrival)

theorem told?_eq_some (told : ledger.told? arrival = some execution) :
    ∃ resource, ledger.prepare arrival.completion arrival.now = .ok (execution, resource) := by
  rw [told?] at told
  cases prepared : ledger.prepare arrival.completion arrival.now with
  | error error =>
      rw [prepared] at told
      cases told
  | ok pair =>
      rw [prepared] at told
      cases told
      exact ⟨pair.2, rfl⟩

/-- An arrival tells of an execution if its job is known and its resource can be read. -/
theorem told?_eq_some_iff : ledger.told? arrival = some execution ↔
    ∃ job resource, ledger.job? arrival.completion.job = .ok (some job) ∧
      ledger.resource? arrival.completion.resource = .ok resource ∧
      execution = .ofCompletion arrival.completion job (resource.elim true (·.active))
        arrival.now := by
  constructor
  · intro told
    obtain ⟨resource, prepared⟩ := told?_eq_some told
    obtain ⟨job, known, about, made⟩ := prepare_eq_ok_iff.1 prepared
    exact ⟨job, resource, known, about, made⟩
  · rintro ⟨job, resource, known, about, made⟩
    rw [told?, prepare_eq_ok_iff.2 ⟨job, known, about, made⟩]
    rfl

theorem slot_of_told (told : ledger.told? arrival = some execution) :
    execution.slot = arrival.completion.slot := by
  obtain ⟨job, resource, _, _, rfl⟩ := told?_eq_some_iff.1 told
  rfl

theorem mem_toldAll (mem : execution ∈ ledger.toldAll arrivals) :
    ∃ arrival ∈ arrivals, execution.slot = arrival.completion.slot := by
  induction arrivals generalizing ledger with
  | nil => cases mem
  | cons arrival rest ih =>
      rcases List.mem_append.1 mem with now | later
      · exact ⟨arrival, List.mem_cons_self, slot_of_told (Option.mem_toList.1 now)⟩
      · obtain ⟨other, inside, same⟩ := ih later
        exact ⟨other, List.mem_cons_of_mem _ inside, same⟩

/-- What an arrival tells of first for a slot. -/
theorem firstFor_told {slot : Slot} :
    firstFor slot (ledger.told? arrival).toList = some execution ↔
      ledger.told? arrival = some execution ∧ arrival.completion.slot = slot := by
  cases told : ledger.told? arrival with
  | none => simp [firstFor]
  | some other =>
      rw [← slot_of_told told]
      by_cases same : other.slot = slot
      · simp [firstFor, same]
      · simp [firstFor, same]

/-- The first execution for a slot is made of the first arrival that told of one for it. -/
theorem firstFor_toldAll_iff {slot : Slot} :
    firstFor slot (ledger.toldAll arrivals) = some execution ↔
      ∃ earlier arrival later, arrivals = earlier ++ arrival :: later ∧
        (ledger.receiveAll earlier).told? arrival = some execution ∧
        arrival.completion.slot = slot ∧ firstFor slot (ledger.toldAll earlier) = none := by
  induction arrivals generalizing ledger with
  | nil => simp [toldAll, firstFor]
  | cons next rest ih =>
      rw [toldAll, firstFor_append]
      cases now : firstFor slot (ledger.told? next).toList with
      | some found =>
          rw [Option.some_or]
          constructor
          · rintro ⟨⟩
            obtain ⟨told, same⟩ := firstFor_told.1 now
            exact ⟨[], next, rest, rfl, told, same, rfl⟩
          · rintro ⟨earlier, arrival, later, split, told, same, free⟩
            cases earlier with
            | nil =>
                cases split
                exact now.symm.trans (firstFor_told.2 ⟨told, same⟩)
            | cons head earlier =>
                cases split
                rw [toldAll, firstFor_append, now] at free
                cases free
      | none =>
          rw [Option.none_or, ih]
          constructor
          · rintro ⟨earlier, arrival, later, rfl, told, same, free⟩
            refine ⟨next :: earlier, arrival, later, rfl, told, same, ?_⟩
            rw [toldAll, firstFor_append, now]
            exact free
          · rintro ⟨earlier, arrival, later, split, told, same, free⟩
            cases earlier with
            | nil =>
                cases split
                cases now.symm.trans (firstFor_told.2 ⟨told, same⟩)
            | cons head earlier =>
                cases split
                rw [toldAll, firstFor_append, now] at free
                exact ⟨earlier, arrival, later, rfl, told, same, free⟩

/-! ## One arrival -/

/-- An arrival that tells of nothing changes nothing. -/
theorem receive_of_untold (untold : ledger.told? arrival = none) :
    ledger.receive arrival = ledger := by
  rw [receive, record]
  rw [told?] at untold
  cases prepared : ledger.prepare arrival.completion arrival.now with
  | error error => rfl
  | ok pair =>
      rw [prepared] at untold
      cases untold

/-- An arrival that tells of an execution leaves the executions as appending it does, and the answer
says whether it was written. -/
theorem receive_of_told {fresh : Bool} (told : ledger.told? arrival = some execution)
    (done : ledger.append execution = .ok (middle, fresh)) :
    (ledger.receive arrival).executions = middle.executions ∧
      ∀ recording, ledger.answer arrival = .ok recording → recording.appended = fresh := by
  obtain ⟨resource, prepared⟩ := told?_eq_some told
  rw [receive, answer, record, prepared]
  dsimp only
  rw [done]
  dsimp only
  split
  · exact ⟨rfl, by rintro recording ⟨⟩⟩
  · exact ⟨rfl, by rintro recording ⟨⟩; rfl⟩
  · exact ⟨executions_renew .., by rintro recording ⟨⟩; rfl⟩

/-- What is kept of the executions that were told of. -/
abbrev KeepsFirst (told : List Execution) (ledger : Ledger) : Prop :=
  Keeps Execution.codec id ledger.executions (firstUnder told)

/-- What is stored under a key is the first execution that was told of for it. -/
theorem KeepsFirst.fetch (keeps : KeepsFirst told ledger) (key : Bytes) :
    Ledger.fetch Execution.codec ledger.executions key = .ok (firstUnder told key) :=
  Keeps.fetch keeps Function.injective_id (fun _ execution _ => Execution.codec_readsBack execution)
    key

theorem KeepsFirst.found (keeps : KeepsFirst told ledger) (slot : Slot) :
    ledger.execution? slot.resource slot.job slot.kind = .ok (firstUnder told slot.key) :=
  keeps.fetch slot.key

/-- The next execution is written if it is the first one under its key. -/
theorem KeepsFirst.append (keeps : KeepsFirst told ledger) (execution : Execution) :
    ∃ middle, ledger.append execution =
        .ok (middle, (firstUnder told execution.slot.key).isNone) ∧
      KeepsFirst (told ++ [execution]) middle := by
  have found := keeps.found execution.slot
  rw [Ledger.append]
  cases known : firstUnder told execution.slot.key with
  | none =>
      rw [known] at found
      refine ⟨ledger.putExecution execution, ?_, ?_⟩
      · rw [show ledger.execution? execution.resource execution.measurements.job execution.kind =
          .ok none from found]
        rfl
      · rw [KeepsFirst, firstUnder_append_of_none known]
        exact Keeps.insert keeps Function.injective_id execution.slot.key execution
  | some other =>
      rw [known] at found
      refine ⟨ledger, ?_, ?_⟩
      · rw [show ledger.execution? execution.resource execution.measurements.job execution.kind =
          .ok (some other) from found]
        rfl
      · rw [KeepsFirst, firstUnder_append_of_some known]
        exact keeps

theorem KeepsFirst.receive (keeps : KeepsFirst told ledger) (arrival : Arrival) :
    KeepsFirst (told ++ (ledger.told? arrival).toList) (ledger.receive arrival) := by
  cases about : ledger.told? arrival with
  | none =>
      rw [receive_of_untold about, Option.toList_none, List.append_nil]
      exact keeps
  | some execution =>
      obtain ⟨middle, done, keeps'⟩ := keeps.append execution
      rw [KeepsFirst, (receive_of_told about done).1]
      exact keeps'

/-- The answer to the next arrival says whether its execution is the first one under its key. -/
theorem KeepsFirst.appended (keeps : KeepsFirst told ledger) {recording : Recording}
    (answered : ledger.answer arrival = .ok recording) :
    recording.appended = (firstUnder told arrival.completion.slot.key).isNone := by
  cases about : ledger.told? arrival with
  | none =>
      rw [answer, record] at answered
      rw [told?] at about
      cases prepared : ledger.prepare arrival.completion arrival.now with
      | error error =>
          rw [prepared] at answered
          cases answered
      | ok pair =>
          rw [prepared] at about
          cases about
  | some execution =>
      obtain ⟨middle, done, _⟩ := keeps.append execution
      rw [← slot_of_told about]
      exact (receive_of_told about done).2 recording answered

section ZeroFree

variable (free : ∀ execution ∈ told, ZeroFree execution.resource)

include free

/-- Without zero characters, the first executions for their slots are stored, and nothing else. -/
theorem KeepsFirst.get?_iff (keeps : KeepsFirst told ledger) (key bytes : Bytes) :
    ledger.executions.get? key = some bytes ↔
      ∃ execution, firstFor execution.slot told = some execution ∧
        execution.slot.key = key ∧ Execution.codec.writeText execution = bytes := by
  rw [keeps key bytes]
  constructor
  · rintro ⟨_, execution, first, rfl, written⟩
    obtain ⟨mem, own⟩ := key_of_firstUnder first
    refine ⟨execution, ?_, own, written⟩
    rw [← firstUnder_key free (free _ mem), own]
    exact first
  · rintro ⟨execution, first, own, written⟩
    have mem := List.mem_of_find?_eq_some first
    refine ⟨key, execution, ?_, rfl, written⟩
    rw [← own, firstUnder_key free (free _ mem)]
    exact first

/-- There are as many entries as slots. -/
theorem KeepsFirst.size_eq (keeps : KeepsFirst told ledger) :
    ledger.executions.size = (told.map Execution.slot).dedup.length := by
  have distinct : ((told.map Execution.slot).dedup.map Slot.key).Nodup := by
    apply (List.nodup_dedup _).map_on
    intro one mem two mem'
    obtain ⟨first, inside, rfl⟩ := List.mem_map.1 (List.mem_dedup.1 mem)
    obtain ⟨second, inside', rfl⟩ := List.mem_map.1 (List.mem_dedup.1 mem')
    exact (Slot.key_inj (free _ inside) (free _ inside')).1
  have all (key : Bytes) : key ∈ (told.map Execution.slot).dedup.map Slot.key ↔
      (firstUnder told key).isSome = true := by
    simp [firstUnder]
  exact (Keeps.size_eq keeps Function.injective_id _ distinct all).trans (List.length_map _)

end ZeroFree

/-- What is stored stays byte for byte when more is told. -/
theorem KeepsFirst.stays {more : List Execution} {key bytes : Bytes}
    (keeps : KeepsFirst told ledger) (keeps' : KeepsFirst (told ++ more) middle)
    (found : ledger.executions.get? key = some bytes) :
    middle.executions.get? key = some bytes := by
  obtain ⟨index, execution, first, same, written⟩ := (keeps ..).1 found
  refine (keeps' ..).2 ⟨index, execution, ?_, same, written⟩
  rw [firstUnder, List.find?_append]
  change (firstUnder told index).or _ = _
  rw [first]
  rfl

/-! ## Any number of arrivals -/

theorem toldAll_append (earlier later : List Arrival) (ledger : Ledger) :
    ledger.toldAll (earlier ++ later) =
      ledger.toldAll earlier ++ (ledger.receiveAll earlier).toldAll later := by
  induction earlier generalizing ledger with
  | nil => rfl
  | cons arrival rest ih =>
      rw [List.cons_append, toldAll, toldAll, ih, List.append_assoc]
      rfl

theorem KeepsFirst.receiveAll (keeps : KeepsFirst told ledger) (arrivals : List Arrival) :
    KeepsFirst (told ++ ledger.toldAll arrivals) (ledger.receiveAll arrivals) := by
  induction arrivals generalizing ledger told with
  | nil =>
      rw [toldAll, List.append_nil]
      exact keeps
  | cons arrival rest ih =>
      rw [toldAll, ← List.append_assoc]
      exact ih (keeps.receive arrival)

/-- From a ledger without executions on, it keeps the first ones. -/
theorem keepsFirst_receiveAll (bare : start.executions = ∅) (arrivals : List Arrival) :
    KeepsFirst (start.toldAll arrivals) (start.receiveAll arrivals) := by
  have empty : KeepsFirst [] start := by
    rw [KeepsFirst, bare]
    exact keeps_empty _ _
  exact empty.receiveAll arrivals

theorem jobs_receiveAll (arrivals : List Arrival) (ledger : Ledger) :
    (ledger.receiveAll arrivals).jobs = ledger.jobs := by
  induction arrivals generalizing ledger with
  | nil => rfl
  | cons arrival rest ih => exact (ih (ledger.receive arrival)).trans (jobs_record ..)

theorem Readable.receiveAll (readable : ledger.Readable) (arrivals : List Arrival) :
    (ledger.receiveAll arrivals).Readable := by
  induction arrivals generalizing ledger with
  | nil => exact readable
  | cons arrival rest ih => exact ih (readable.record ..)

/-- Whether the job of an arrival is stored. -/
def knows (ledger : Ledger) (arrival : Arrival) : Bool :=
  match ledger.job? arrival.completion.job with
  | .ok (some _) => true
  | _ => false

/-- If all can be read, the arrivals on known jobs tell of an execution each. -/
theorem slots_toldAll (readable : ledger.Readable) (arrivals : List Arrival) :
    (ledger.toldAll arrivals).map Execution.slot =
      (arrivals.filter ledger.knows).map (·.completion.slot) := by
  induction arrivals generalizing ledger with
  | nil => rfl
  | cons arrival rest ih =>
      have same : (ledger.receive arrival).knows = ledger.knows := by
        funext other
        rw [knows, knows, job?, receive, jobs_record]
        rfl
      have readable' : (ledger.receive arrival).Readable :=
        readable.record arrival.completion arrival.now
      have later := ih readable'
      rw [same] at later
      rw [toldAll, List.map_append, later, List.filter_cons]
      cases told : ledger.told? arrival with
      | some execution =>
          obtain ⟨job, resource, known, _⟩ := told?_eq_some_iff.1 told
          have knows : ledger.knows arrival = true := by rw [Ledger.knows, known]
          rw [if_pos knows, List.map_cons, ← slot_of_told told]
          rfl
      | none =>
          have knows : ¬ledger.knows arrival = true := by
            intro knows
            rw [Ledger.knows] at knows
            split at knows
            · next job known =>
              obtain ⟨resource, about⟩ := readable.resources arrival.completion.resource
              have tells := told?_eq_some_iff.2 ⟨job, resource, known, about, rfl⟩
              rw [told] at tells
              cases tells
            · cases knows
          rw [if_neg knows]
          rfl

/-! ## Unknown jobs -/

theorem record_of_unknownJob {completion : Completion}
    (unknown : ledger.job? completion.job = .ok none) (now : Instant) :
    ledger.record completion now = (ledger, .error (.unknownJob completion.job)) := by
  have refused : ledger.prepare completion now = .error (.unknownJob completion.job) := by
    rw [prepare, unknown]
    rfl
  rw [record, refused]

/-- A report that is refused for its job is one on a job that is not stored. -/
theorem unknown_of_record {completion : Completion} {now : Instant} {id : String}
    (refused : (ledger.record completion now).2 = .error (.unknownJob id)) :
    ledger.job? completion.job = .ok none := by
  cases known : ledger.job? completion.job with
  | error error =>
      have failed : ledger.prepare completion now = .error (.ledger error) := by
        rw [prepare, known]
        rfl
      rw [record, failed] at refused
      cases refused
  | ok stored =>
      cases stored with
      | none => rfl
      | some job =>
          -- Whatever fails now is an error of the ledger.
          rw [record] at refused
          split at refused
          · next failed =>
            cases about : ledger.resource? completion.resource with
            | error error =>
                rw [prepare, known, about] at failed
                cases failed
                cases refused
            | ok resource =>
                rw [prepare, known, about] at failed
                cases failed
          · split at refused
            · cases refused
            · split at refused <;> cases refused

/-! ## The history -/

/-- What a ledger keeps of the reports that came in. -/
structure KeepsHistory (start : Ledger) (arrivals : List Arrival) : Prop where
  /-- The first executions that were told of for their slots are stored as they were written, and
  nothing else is. -/
  stored : ∀ key bytes, (start.receiveAll arrivals).executions.get? key = some bytes ↔
    ∃ execution, firstFor execution.slot (start.toldAll arrivals) = some execution ∧
      execution.slot.key = key ∧ Execution.codec.writeText execution = bytes
  /-- The first one for a slot is made of the first report that told of one for it. -/
  first : ∀ slot execution, firstFor slot (start.toldAll arrivals) = some execution ↔
    ∃ earlier arrival later, arrivals = earlier ++ arrival :: later ∧
      (start.receiveAll earlier).told? arrival = some execution ∧
      arrival.completion.slot = slot ∧ firstFor slot (start.toldAll earlier) = none
  /-- There is one of them for each slot that was told of. -/
  count : (start.receiveAll arrivals).executions.size =
    ((start.toldAll arrivals).map Execution.slot).dedup.length
  found : ∀ slot : Slot, ZeroFree slot.resource →
    (start.receiveAll arrivals).execution? slot.resource slot.job slot.kind =
      .ok (firstFor slot (start.toldAll arrivals))
  /-- What is stored stays byte for byte, whatever comes in later. -/
  kept : ∀ later key bytes, (start.receiveAll arrivals).executions.get? key = some bytes →
    (start.receiveAll (arrivals ++ later)).executions.get? key = some bytes
  /-- The next report tells of an execution if its job was known from the start and its resource can
  be read. -/
  told : ∀ next : Arrival, ∀ execution, (start.receiveAll arrivals).told? next = some execution ↔
    ∃ job resource, start.job? next.completion.job = .ok (some job) ∧
      (start.receiveAll arrivals).resource? next.completion.resource = .ok resource ∧
      execution = .ofCompletion next.completion job (resource.elim true (·.active)) next.now
  /-- Its answer tells whether it is the first one for its slot. -/
  appended : ∀ next : Arrival, ZeroFree next.completion.resource → ∀ recording,
    (start.receiveAll arrivals).answer next = .ok recording →
    (recording.appended = true ↔
      firstFor next.completion.slot (start.toldAll arrivals) = none)
  /-- If all that was stored at the start can be read, the slots that were told of are those of the
  reports on known jobs. -/
  slots : start.Readable → (start.toldAll arrivals).map Execution.slot =
    (arrivals.filter start.knows).map (·.completion.slot)
  /-- Then every report on a known job tells of an execution and is recorded. -/
  answered : start.Readable → ∀ next : Arrival, ∀ job,
    start.job? next.completion.job = .ok (some job) →
    (∃ execution, (start.receiveAll arrivals).told? next = some execution) ∧
      ∃ recording, (start.receiveAll arrivals).answer next = .ok recording
  /-- A report on an unknown job is refused and changes nothing. -/
  refused : ∀ next : Arrival, start.job? next.completion.job = .ok none →
    (start.receiveAll arrivals).answer next = .error (.unknownJob next.completion.job) ∧
      (start.receiveAll arrivals).receive next = start.receiveAll arrivals
  /-- No other report is refused for its job. -/
  unknown : ∀ next : Arrival, ∀ id,
    (start.receiveAll arrivals).answer next = .error (.unknownJob id) →
    start.job? next.completion.job = .ok none

/-- From a ledger without executions on, whatever reports come in, the history holds the first
execution of every slot. -/
theorem keepsHistory_receiveAll (bare : start.executions = ∅) (arrivals : List Arrival)
    (free : ∀ arrival ∈ arrivals, ZeroFree arrival.completion.resource) :
    start.KeepsHistory arrivals := by
  have keeps := keepsFirst_receiveAll bare arrivals
  have jobs (id : String) : (start.receiveAll arrivals).job? id = start.job? id := by
    rw [job?, jobs_receiveAll]
    rfl
  have plain : ∀ execution ∈ start.toldAll arrivals, ZeroFree execution.resource := by
    intro execution mem
    obtain ⟨arrival, inside, same⟩ := mem_toldAll mem
    have resources : execution.resource = arrival.completion.resource :=
      congrArg Slot.resource same
    exact resources ▸ free arrival inside
  constructor
  · exact keeps.get?_iff plain
  · exact fun _ _ => firstFor_toldAll_iff
  · exact keeps.size_eq plain
  · intro slot free'
    rw [keeps.found, firstUnder_key plain free']
  · intro later key bytes found
    have keeps' := keepsFirst_receiveAll bare (arrivals ++ later)
    rw [KeepsFirst, toldAll_append] at keeps'
    exact keeps.stays keeps' found
  · intro next execution
    rw [told?_eq_some_iff, jobs]
  · intro next free' recording answered
    rw [keeps.appended answered, firstUnder_key plain free', Option.isNone_iff_eq_none]
  · exact fun readable => slots_toldAll readable arrivals
  · intro readable next job known
    have readable := readable.receiveAll arrivals
    obtain ⟨resource, about⟩ := readable.resources next.completion.resource
    have known := (jobs next.completion.job).trans known
    exact ⟨⟨_, told?_eq_some_iff.2 ⟨job, resource, known, about, rfl⟩⟩,
      record_of_readable readable known next.now⟩
  · intro next unknown
    have whole := record_of_unknownJob ((jobs _).trans unknown) next.now
    exact ⟨congrArg Prod.snd whole, congrArg Prod.fst whole⟩
  · intro next id refused
    exact (jobs _).symm.trans (unknown_of_record refused)

/-- A check comes in twice, with a download of the same page and a report on an unknown job in
between. -/
def pageArrivals : List Arrival :=
  [⟨(PageEvent.report ⟨false, .checkLink, false⟩).completion, .epoch⟩,
    ⟨(PageEvent.report ⟨false, .unconditionalDownload, false⟩).completion, .epoch⟩,
    ⟨{ (PageEvent.report ⟨false, .checkLink, true⟩).completion with job := "9" }, .epoch⟩,
    ⟨(PageEvent.report ⟨false, .checkLink, true⟩).completion, .epoch⟩]

theorem keepsHistory_page :
    pageLedger.executions = ∅ ∧
      (∀ arrival ∈ pageArrivals, ZeroFree arrival.completion.resource) ∧
      pageLedger.KeepsHistory pageArrivals :=
  have free : ∀ arrival ∈ pageArrivals, ZeroFree arrival.completion.resource := by decide
  ⟨rfl, free, keepsHistory_receiveAll rfl pageArrivals free⟩

end Ledger

end MediaHarvest
