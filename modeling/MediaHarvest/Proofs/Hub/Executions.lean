import MediaHarvest.Hub.Reception
import MediaHarvest.Proofs.Hub.Dispatch
import MediaHarvest.Proofs.Ledger.Records
import MediaHarvest.Proofs.Retrieval.Counts
import MediaHarvest.Proofs.Retrieval.Returning
import Mathlib.Data.List.Induction

/-!
# Histories of executions

An execution builds a task from the ledger, lets a node carry it out and records the report.  The
header fields that are recorded are those that the next execution of the same key compares with.
So a download that is skipped is one whose length was announced to an earlier execution of its key.

That execution need not have stored a body: it may have failed after the length was announced, and
its report is recorded all the same.
-/

namespace MediaHarvest

/-! ## Announced lengths -/

/-- The lengths that the header fields of a response announce. -/
def Response.announcedLengths (response : Response) : List UInt64 :=
  response.headers.filterMap fun header =>
    if Text.lower header.1 = "content-length" then
      Number.word? (Text.trim (Text.lossy header.2)).toList
    else none

/-- A length that was seen in the noted header fields of a response is one that it announced. -/
theorem Task.announced_of_previousLength {task : Task} {response : Response} {length : UInt64}
    (noted : task.previousHeaders = response.notedHeaders)
    (previous : task.previousLength = some length) : length ∈ response.announcedLengths := by
  rw [previousLength, noted] at previous
  obtain ⟨⟨name, value⟩, found, read⟩ := Option.bind_eq_some_iff.1 previous
  have named : Text.lower name = "content-length" := by simpa using List.find?_some found
  have kept := SortedMap.mem_of_mem_ofList (List.mem_of_find?_eq_some found)
  obtain ⟨⟨sent, bytes⟩, mem, same⟩ := List.mem_map.1 kept
  cases same
  apply List.mem_filterMap.2
  refine ⟨(sent, bytes), mem, ?_⟩
  rw [if_pos named]
  exact read

theorem Task.previousLength_of_bare {task : Task} (bare : task.previousHeaders = ∅) :
    task.previousLength = none := by
  rw [previousLength, bare]
  rfl

/-! ## Executions -/

/-- A task of a job, as a node carried it out up to its report. -/
structure Attempt where
  /-- The role of the link for which the job is. -/
  role : SourceRole
  setup : NodeSetup
  task : Task
  /-- What the node has left behind before. -/
  trace : NodeTrace
  now : Instant
  /-- What the node leaves behind, and its report. -/
  result : NodeTrace × Completion
  made : setup.run task trace now = (result.1, .ok result.2)

namespace Attempt

/-- The outcome that the node reports. -/
def outcome (attempt : Attempt) : Outcome := attempt.result.2.outcome

/-- What the execution is recorded for. -/
def key (attempt : Attempt) : LatestKey :=
  ⟨attempt.task.resource, attempt.task.kind, attempt.role⟩

/-- A success with which the origin answered the execution, and whose header fields it reports. -/
def Hears (attempt : Attempt) (method : Method) (response : Response) : Prop :=
  Heard attempt.setup.network attempt.trace.requests attempt.result.1.requests attempt.outcome
    method response

/-- The execution is complete without a download. -/
def Skipped (attempt : Attempt) : Prop :=
  attempt.outcome.state = .completed ∧ .skippedCompleted ∈ attempt.outcome.history

/-- The execution is complete after the download of a body of an announced length. -/
def Downloaded (attempt : Attempt) (length : UInt64) : Prop :=
  attempt.outcome.state = .completed ∧ .downloading ∈ attempt.outcome.history ∧
    ∃ response, attempt.Hears .get response ∧ length ∈ response.announcedLengths

/-- A length that the origin announced to the execution. -/
inductive Announced (attempt : Attempt) (length : UInt64) : Prop where
  /-- The body of that length was downloaded. -/
  | stored (downloaded : attempt.Downloaded length)
  /-- The execution failed after the length was announced. -/
  | failed {method : Method} {response : Response} (hears : attempt.Hears method response)
      (announced : length ∈ response.announcedLengths)
      (unfinished : attempt.outcome.state ≠ .completed)
  /-- The download was skipped on a response that announces another length first. -/
  | ambiguous {response : Response} (skipped : attempt.Skipped)
      (hears : attempt.Hears .head response) (announced : length ∈ response.announcedLengths)
      (other : response.declaredLength ≠ some length)

/-- The report of an execution tells which task was carried out. -/
theorem result_names (attempt : Attempt) :
    attempt.result.2.job = attempt.task.job ∧ attempt.result.2.resource = attempt.task.resource ∧
      attempt.result.2.kind = attempt.task.kind := by
  obtain ⟨outcome, subTasks, report⟩ := NodeSetup.report_run attempt.made
  rw [report]
  exact ⟨rfl, rfl, rfl⟩

/-- How the outcome of an execution came by its header fields. -/
theorem traced (attempt : Attempt) :
    Traced attempt.setup.network attempt.task attempt.trace.requests attempt.result.1.requests
      attempt.outcome (attempt.outcome.state == .completed) :=
  NodeSetup.traced_run attempt.made

/-- A skipped download is one of which the length is known and declared again. -/
theorem Skipped.unchanged {attempt : Attempt} (skipped : attempt.Skipped) :
    ∃ length response, attempt.task.kind = .conditionalDownload ∧
      attempt.task.previousLength = some length ∧ attempt.Hears .head response ∧
      response.declaredLength = some length := by
  rcases skipped with ⟨completed, visited⟩
  have traced := attempt.traced
  rw [completed] at traced
  cases traced with
  | checked _ _ unskipped => exact absurd visited unskipped
  | skipped kind previous heard declared => exact ⟨_, _, kind, previous, heard, declared⟩
  | downloaded _ _ unskipped => exact absurd visited unskipped

/-- The header fields of an outcome that read as a length come from a response that announced it,
unless the execution did nothing but repeat what it was given. -/
theorem announced_or_repeated {attempt : Attempt} {task : Task} {length : UInt64}
    (kind : attempt.task.kind = .conditionalDownload)
    (seen : task.previousHeaders = attempt.outcome.headers)
    (previous : task.previousLength = some length) :
    attempt.Announced length ∨ attempt.task.previousLength = some length := by
  have traced := attempt.traced
  cases ended : attempt.outcome.state == .completed with
  | false =>
      rw [ended] at traced
      have unfinished : attempt.outcome.state ≠ .completed := ne_of_beq_false ended
      cases traced with
      | unanswered headers =>
          rw [Task.previousLength_of_bare (seen.trans headers)] at previous
          cases previous
      | failed heard =>
          have announced := Task.announced_of_previousLength (seen.trans heard.headers) previous
          exact .inl (.failed heard announced unfinished)
  | true =>
      rw [ended] at traced
      have completed : attempt.outcome.state = .completed := eq_of_beq ended
      cases traced with
      | checked checks =>
          rw [kind] at checks
          cases checks
      | @skipped response known _ before heard declared visited =>
          by_cases same : known = length
          · exact .inr (same ▸ before)
          · have announced := Task.announced_of_previousLength (seen.trans heard.headers) previous
            have other : response.declaredLength ≠ some length := by
              rw [declared]
              exact fun equal => same (Option.some.inj equal)
            exact .inl (.ambiguous ⟨completed, visited⟩ heard announced other)
      | downloaded heard visited =>
          have announced := Task.announced_of_previousLength (seen.trans heard.headers) previous
          exact .inl (.stored ⟨completed, visited, _, heard, announced⟩)

end Attempt

/-! ## Histories -/

/-- What a hub that starts without latest records has been through: the executions, the first one
first.  Each of them builds its task from a stored job, lets a node carry it out and records the
report.  Whatever else happens to the hub leaves the latest records alone. -/
inductive History : Hub → List Attempt → Prop where
  | start {hub : Hub} (bare : hub.ledger.latest = ∅) : History hub []
  | elsewhere {hub after : Hub} {attempts : List Attempt} (history : History hub attempts)
      (same : after.ledger.latest = hub.ledger.latest) : History after attempts
  | execution {hub : Hub} {attempts : List Attempt} {attempt : Attempt} {job : Job} {index : Nat}
      (history : History hub attempts) (stored : hub.ledger.job? job.id = .ok (some job))
      (role : attempt.role = job.role) (built : hub.buildTask job index = .ok attempt.task)
      (now : Instant) : History (hub.record attempt.result.2 now).1 (attempts ++ [attempt])

/-- Every latest record stands under its key and holds the header fields of an execution of that
key. -/
structure Sourced (ledger : Ledger) (attempts : List Attempt) : Prop where
  keyed : ledger.Keyed
  source : ∀ ⦃key latest⦄, ledger.latest? key = .ok (some latest) →
    ∃ attempt ∈ attempts, attempt.key = key ∧
      latest.measurements.headers = attempt.outcome.headers

namespace Sourced

variable {ledger after : Ledger} {attempts : List Attempt} {attempt : Attempt}

theorem of_bare (bare : ledger.latest = ∅) : Sourced ledger attempts := by
  constructor
  · intro key latest found
    rw [Ledger.latest?_of_bare bare] at found
    cases found
  · intro key latest found
    rw [Ledger.latest?_of_bare bare] at found
    cases found

theorem of_latest_eq (sourced : Sourced ledger attempts) (same : after.latest = ledger.latest)
    {others : List Attempt} (more : attempts ⊆ others) : Sourced after others := by
  constructor
  · exact sourced.keyed.of_latest_eq same
  · intro key latest found
    rw [Ledger.latest?_of_latest_eq same] at found
    obtain ⟨source, mem, named, headers⟩ := sourced.source found
    exact ⟨source, more mem, named, headers⟩

/-- What one execution records keeps every latest record sourced. -/
theorem record (sourced : Sourced ledger attempts) {job : Job} (role : attempt.role = job.role)
    (found : ledger.job? attempt.task.job = .ok (some job)) (now : Instant) :
    Sourced (ledger.record attempt.result.2 now).1 (attempts ++ [attempt]) := by
  obtain ⟨jobName, resource, kind⟩ := attempt.result_names
  rw [← jobName] at found
  rcases Ledger.latest_record sourced.keyed found now with same | ⟨latest, named, measured, same⟩
  · exact sourced.of_latest_eq same (List.subset_append_left ..)
  · constructor
    · exact (sourced.keyed.putLatest latest).of_latest_eq same
    · intro key other read
      rw [Ledger.latest?_of_latest_eq same, Ledger.latest?_putLatest] at read
      split at read
      · next this =>
        cases read
        refine ⟨attempt, List.mem_append_right _ List.mem_cons_self, ?_, ?_⟩
        · rw [this, named, Attempt.key, resource, kind, role]
        · rw [measured]
          rfl
      · obtain ⟨source, mem, named, headers⟩ := sourced.source read
        exact ⟨source, List.mem_append_left _ mem, named, headers⟩

end Sourced

namespace History

variable {hub : Hub} {attempts earlier later : List Attempt} {attempt : Attempt}

/-- The latest records are sourced throughout a history. -/
theorem sourced (history : History hub attempts) : Sourced hub.ledger attempts := by
  induction history with
  | start bare => exact .of_bare bare
  | elsewhere _ same ih => exact ih.of_latest_eq same (List.Subset.refl _)
  | execution _ stored role built now ih =>
      rw [Hub.ledger_record]
      obtain ⟨_, _, _, _, _, _, task⟩ := Hub.buildTask_eq_ok_iff.1 built
      apply ih.record role _ now
      rw [task]
      exact stored

/-- The last execution of a history built its task after the ones before. -/
theorem last (history : History hub (earlier ++ [attempt])) :
    ∃ (before : Hub) (job : Job) (index : Nat), History before earlier ∧
      attempt.role = job.role ∧ before.buildTask job index = .ok attempt.task := by
  generalize whole : earlier ++ [attempt] = attempts at history
  induction history with
  | start bare => simp at whole
  | elsewhere _ _ ih => exact ih whole
  | execution history _ role built _ =>
      obtain ⟨rfl, same⟩ := List.append_inj' whole rfl
      cases same
      exact ⟨_, _, _, history, role, built⟩

/-- An execution of a history built its task after the ones before, whatever followed. -/
theorem built (history : History hub (earlier ++ attempt :: later)) :
    ∃ (before : Hub) (job : Job) (index : Nat), History before earlier ∧
      attempt.role = job.role ∧ before.buildTask job index = .ok attempt.task := by
  induction later using List.reverseRecOn generalizing hub with
  | nil => exact history.last
  | append_singleton later final ih =>
      rw [← List.cons_append, ← List.append_assoc] at history
      obtain ⟨before, _, _, past, _, _⟩ := history.last
      exact ih past

/-- What a conditional download compares with was seen by an earlier execution of its key. -/
theorem previous_source (history : History hub (earlier ++ attempt :: later)) {length : UInt64}
    (previous : attempt.task.previousLength = some length) :
    ∃ source ∈ earlier, source.key = attempt.key ∧
      attempt.task.previousHeaders = source.outcome.headers := by
  obtain ⟨before, job, index, past, role, built⟩ := history.built
  obtain ⟨planned, _, headers, _, _, given, task⟩ := Hub.buildTask_eq_ok_iff.1 built
  rcases Hub.previousHeaders_eq_ok given with rfl | ⟨latest, found, rfl⟩
  · have bare : attempt.task.previousHeaders = ∅ := by rw [task]
    rw [Task.previousLength_of_bare bare] at previous
    cases previous
  · obtain ⟨source, mem, key, same⟩ := past.sourced.source found
    refine ⟨source, mem, ?_, ?_⟩
    · rw [key, Attempt.key, task, role]
    · rw [task, ← same]

/-- A length that a conditional download compares with was announced to an earlier execution of its
key.  An execution that merely repeats the length leads back to one before it. -/
theorem announced_before {hub : Hub} {earlier later : List Attempt} {attempt : Attempt}
    (history : History hub (earlier ++ attempt :: later)) {length : UInt64}
    (kind : attempt.task.kind = .conditionalDownload)
    (previous : attempt.task.previousLength = some length) :
    ∃ source ∈ earlier, source.key = attempt.key ∧ source.Announced length := by
  obtain ⟨source, mem, key, seen⟩ := history.previous_source previous
  have kind' : source.task.kind = .conditionalDownload :=
    (congrArg LatestKey.kind key).trans kind
  rcases Attempt.announced_or_repeated kind' seen previous with announced | repeated
  · exact ⟨source, mem, key, announced⟩
  · obtain ⟨before, _, _, past, _, _⟩ := history.built
    obtain ⟨front, back, rfl⟩ := List.append_of_mem mem
    have shorter : front.length < (front ++ source :: back).length := by simp
    obtain ⟨first, within, same, announced⟩ := announced_before past kind' repeated
    exact ⟨first, List.mem_append_left _ within, same.trans key, announced⟩
termination_by earlier.length

/-- In every history, a download is skipped only if the length that is declared is known from an
earlier execution of its key to which it was announced: one that downloaded a body of that length,
one that failed after the announcement, or one that skipped on an ambiguous response. -/
theorem announced_of_skipped (history : History hub (earlier ++ attempt :: later))
    (skipped : attempt.Skipped) :
    ∃ length, attempt.task.previousLength = some length ∧
      (∃ response, attempt.Hears .head response ∧ response.declaredLength = some length) ∧
      ∃ source ∈ earlier, source.key = attempt.key ∧ source.Announced length := by
  obtain ⟨length, response, kind, previous, hears, declared⟩ := skipped.unchanged
  exact ⟨length, previous, ⟨response, hears, declared⟩, history.announced_before kind previous⟩

end History

/-! ## A content that is too large -/

/-- A job for pictures of up to five bytes. -/
def smallPictures : Job where
  id := "7"
  owner := ⟨"provider", "collection", "record", "execution"⟩
  tasks := [⟨.conditionalDownload, "picture", []⟩]
  state := .ready
  role := .object
  limits := { Limits.unlimited with contentSize := 5 }
  createdAt := .epoch
  updatedAt := .epoch

/-- The picture. -/
def picture : Resource where
  id := "picture"
  url := some "http://192.0.2.1/"
  owner := smallPictures.owner
  active := true
  lastExecution := none
  redirectionPath := []

/-- The origin announces ten bytes, whatever it is asked for. -/
def tenBytes : Response where
  status := 200
  headers := [("content-length", Text.utf8 "10")]
  peer := none
  body := ⟨[], .complete .zero⟩

/-- A node for the picture. -/
def pictureSetup : NodeSetup where
  node := "node-0"
  policy := .usual
  network :=
    { lookup := fun _ => .answered .zero (.error "no such host")
      exchange := fun _ _ => .answered .zero tenBytes
      domains := .common
      uptime := .zero }
  postProcessing := .skip
  sinkKind := .memory
  folder := "out"

/-- The job's task after the given header fields were seen. -/
def pictureTask (seen : Headers) : Task where
  id := smallPictures.taskId 0
  job := smallPictures.id
  resource := picture.id
  url := picture.url
  kind := .conditionalDownload
  limits := smallPictures.limits
  previousHeaders := seen
  subTasks := []
  owner := smallPictures.owner

/-- The node carries out the task. -/
def pictureRun (seen : Headers) : NodeTrace × Except Halt Completion :=
  pictureSetup.run (pictureTask seen) ⟨.empty, [], .zero⟩ .epoch

/-- There is a report of it, as the origin always answers. -/
theorem reports_picture (seen : Headers) : (pictureRun seen).2.toOption.isSome = true := by
  have lets : (pictureSetup.terms (pictureTask seen)).LetEnd :=
    { toEndWaits := Terms.endWaits_of_answers (fun _ => Lookup.noConfusion)
        fun _ _ => ⟨_, _, _, rfl, rfl⟩
      redirects := (by decide : (30 : UInt32) ≠ 4294967295)
      deadline := by
        rintro _ ⟨⟩ }
  obtain ⟨after, report, made⟩ := NodeSetup.returns_run lets (.inr rfl) ⟨.empty, [], .zero⟩ .epoch
  rw [pictureRun, made]
  rfl

theorem eq_ok_get {α β ε : Type} {ran : α × Except ε β} (some : ran.2.toOption.isSome = true) :
    ran = (ran.1, .ok (ran.2.toOption.get some)) := by
  rcases ran with ⟨after, error | value⟩
  · cases some
  · rfl

/-- An execution of the job's task after the given header fields were seen. -/
def pictureAttempt (seen : Headers) : Attempt where
  role := smallPictures.role
  setup := pictureSetup
  task := pictureTask seen
  trace := ⟨.empty, [], .zero⟩
  now := .epoch
  result := ((pictureRun seen).1, (pictureRun seen).2.toOption.get (reports_picture seen))
  made := eq_ok_get (reports_picture seen)

/-- A hub that stores the job and the picture. -/
def pictureHub : Hub :=
  { Hub.start 1 .unlimited .zero with
    ledger := (Ledger.empty.putJob smallPictures).putResource picture }

/-- The download is given up, but the header fields are kept. -/
theorem pictureAttempt_fails :
    (pictureAttempt ∅).outcome.state = .abortedSizeLimit ∧
      (pictureAttempt ∅).outcome.headers = tenBytes.notedHeaders := by
  decide +kernel

/-- The next execution finds the length unchanged. -/
theorem pictureAttempt_skips : (pictureAttempt tenBytes.notedHeaders).Skipped := by
  unfold Attempt.Skipped
  decide +kernel

theorem pictureHub_job : pictureHub.ledger.job? smallPictures.id = .ok (some smallPictures) :=
  have whole : smallPictures.limits.Whole :=
    ⟨Span.whole_zero, Span.whole_zero, Span.whole_zero⟩
  (Ledger.job?_putJob whole smallPictures.id).trans (if_pos rfl)

theorem pictureHub_resource : pictureHub.ledger.resource? picture.id = .ok (some picture) :=
  (Ledger.resource?_putResource _ picture picture.id).trans (if_pos rfl)

/-- What the hub finds once a first report on the picture is recorded. -/
theorem pictureHub_record {completion : Completion} (job : completion.job = smallPictures.id)
    (resource : completion.resource = picture.id) (kind : completion.kind = .conditionalDownload) :
    (pictureHub.record completion .epoch).1.ledger.job? smallPictures.id =
        .ok (some smallPictures) ∧
      (∃ renewed : Resource,
        (pictureHub.record completion .epoch).1.ledger.resource? picture.id = .ok (some renewed) ∧
        renewed.url = picture.url) ∧
      (pictureHub.record completion .epoch).1.previousHeaders smallPictures
        ⟨.conditionalDownload, picture.id, []⟩ = .ok completion.outcome.headers := by
  obtain ⟨jobs, resources, latest, found, measured⟩ :=
    Ledger.record_first (job ▸ pictureHub_job) (resource ▸ pictureHub_resource)
      (Ledger.execution?_of_bare rfl _ _ _) (Ledger.latest?_of_bare rfl _)
      (Hub.ledger_record pictureHub completion .epoch).symm
  refine ⟨(jobs _).trans pictureHub_job, resources, ?_⟩
  rw [resource, kind] at found
  rw [Hub.previousHeaders, if_pos rfl, found]
  exact congrArg (fun measurements => Except.ok measurements.headers) measured

/-- The failed download is recorded before the execution that skips. -/
theorem pictureHistory : ∃ hub,
    History hub [pictureAttempt ∅, pictureAttempt tenBytes.notedHeaders] := by
  let planned : PlannedTask := ⟨.conditionalDownload, picture.id, []⟩
  have built : pictureHub.buildTask smallPictures 0 = .ok (pictureAttempt ∅).task :=
    Hub.buildTask_eq_ok_iff.2 ⟨planned, some picture, ∅, rfl, pictureHub_resource, rfl, rfl⟩
  have first := History.execution (.start rfl) pictureHub_job rfl built .epoch
  obtain ⟨job, resource, kind⟩ := (pictureAttempt ∅).result_names
  obtain ⟨stored, ⟨renewed, about, same⟩, seen⟩ := pictureHub_record job resource kind
  have again : (pictureHub.record (pictureAttempt ∅).result.2 .epoch).1.buildTask smallPictures 0 =
      .ok (pictureAttempt tenBytes.notedHeaders).task := by
    apply Hub.buildTask_eq_ok_iff.2
    have url : (some renewed : Option Resource).bind (·.url) = picture.url := same
    refine ⟨planned, some renewed, tenBytes.notedHeaders, rfl, about, ?_, ?_⟩
    · rw [← pictureAttempt_fails.2]
      exact seen
    · rw [url]
      rfl
  exact ⟨_, .execution first stored rfl again .epoch⟩

/-- A download is skipped although no body was ever downloaded: the length was announced to an
execution that gave up. -/
theorem skipped_without_download :
    (∃ hub, History hub [pictureAttempt ∅, pictureAttempt tenBytes.notedHeaders]) ∧
      (pictureAttempt tenBytes.notedHeaders).Skipped ∧
      (pictureAttempt tenBytes.notedHeaders).task.previousLength = some 10 ∧
      ¬ ∃ source ∈ [pictureAttempt ∅], ∃ length, source.Downloaded length := by
  refine ⟨pictureHistory, pictureAttempt_skips, by decide +kernel, ?_⟩
  rintro ⟨source, mem, length, completed, _⟩
  rw [List.mem_singleton.1 mem, pictureAttempt_fails.1] at completed
  cases completed

/-- What holds of every skipped download holds of this one. -/
theorem announced_of_skipped_picture :
    (∃ hub, History hub ([pictureAttempt ∅] ++ pictureAttempt tenBytes.notedHeaders :: [])) ∧
      (pictureAttempt tenBytes.notedHeaders).Skipped ∧
      ∃ length, (pictureAttempt tenBytes.notedHeaders).task.previousLength = some length ∧
        (∃ response, (pictureAttempt tenBytes.notedHeaders).Hears .head response ∧
          response.declaredLength = some length) ∧
        ∃ source ∈ [pictureAttempt ∅],
          source.key = (pictureAttempt tenBytes.notedHeaders).key ∧ source.Announced length := by
  obtain ⟨hub, history⟩ := pictureHistory
  have split : History hub
      ([pictureAttempt ∅] ++ pictureAttempt tenBytes.notedHeaders :: []) := history
  have announced := History.announced_of_skipped split pictureAttempt_skips
  exact ⟨⟨hub, split⟩, pictureAttempt_skips, announced⟩

end MediaHarvest
