import MediaHarvest.Proofs.Ledger.Records
import MediaHarvest.Proofs.Time.Order

/-!
# Reports in any order

Reports are recorded in any order and any number of times.  `Recordings` collects what was recorded
from a starting ledger on, and everything else that may happen to the ledger in between.

The latest record of a key is the one of the report on the key that ended last, whatever is recorded
for other keys.  Only the times at which the record was made and renewed depend on the order.
-/

namespace MediaHarvest

/-! ## Reports -/

/-- A report as a ledger takes it: with what it looks up about the job and the resource. -/
structure Report where
  completion : Completion
  owner : Owner
  role : SourceRole
  active : Bool
deriving DecidableEq

namespace Report

/-- When the execution ended that the report tells of. -/
def completedAt (report : Report) : Instant := report.completion.completedAt

/-- The latest record that the report is about. -/
def key (report : Report) : LatestKey :=
  ⟨report.completion.resource, report.completion.kind, report.role⟩

/-- The name of the execution that the report tells of. -/
def executionId (report : Report) : String :=
  Execution.idOf report.completion.resource report.completion.job report.completion.kind

/-- The execution that the report tells of. -/
def execution (report : Report) (now : Instant) : Execution where
  id := report.executionId
  createdAt := now
  active := report.active
  kind := report.completion.kind
  owner := report.owner
  role := report.role
  resource := report.completion.resource
  measurements := .ofCompletion report.completion

/-- The latest record of the report, made and renewed at the given times. -/
def latest (report : Report) (created updated : Instant) : Latest where
  id := report.key.text
  createdAt := created
  updatedAt := updated
  active := report.active
  kind := report.completion.kind
  owner := report.owner
  role := report.role
  resource := report.completion.resource
  execution := report.executionId
  measurements := .ofCompletion report.completion

/-- Whether the report renews what is on record for its key. -/
def Renews (report : Report) (stored : Option Latest) : Prop :=
  ∀ latest ∈ stored, latest.measurements.completedAt ≤ report.completedAt

instance (report : Report) (stored : Option Latest) : Decidable (report.Renews stored) := by
  unfold Renews
  infer_instance

@[simp]
theorem renews_none (report : Report) : report.Renews none := by
  simp [Renews]

@[simp]
theorem renews_some {report : Report} {latest : Latest} :
    report.Renews (some latest) ↔ latest.measurements.completedAt ≤ report.completedAt := by
  simp [Renews]

/-- What the report puts in place of what is on record for its key. -/
def replacing (report : Report) (now : Instant) : Option Latest → Latest
  | none => report.latest now now
  | some latest => latest.renew (report.execution now) now

/-- A record of the same key keeps nothing but the time at which it was made. -/
theorem replacing_latest {report other : Report} (same : other.key = report.key)
    (now created updated : Instant) :
    report.replacing now (some (other.latest created updated)) = report.latest created now := by
  have kind : other.completion.kind = report.completion.kind := congrArg LatestKey.kind same
  have role : other.role = report.role := congrArg LatestKey.role same
  have resource : other.completion.resource = report.completion.resource :=
    congrArg LatestKey.resource same
  simp only [replacing, Latest.renew, latest, execution, same, kind, role, resource]

end Report

namespace Ledger

variable {ledger after : Ledger} {report : Report} {completion : Completion} {key : LatestKey}
  {stored : Option Latest} {resource : Option Resource} {now : Instant}

/-- The ledger takes a report: the job is known, and what is looked up about the resource and the
execution can be read. -/
structure Sees (ledger : Ledger) (report : Report) : Prop where
  job : ∃ job, ledger.job? report.completion.job = .ok (some job) ∧ job.owner = report.owner ∧
    job.role = report.role
  resource : ∃ resource, ledger.resource? report.completion.resource = .ok resource ∧
    resource.elim true (·.active) = report.active
  /-- An earlier execution, if there is one, can be read. -/
  execution : ∃ known, ledger.execution? report.completion.resource report.completion.job
    report.completion.kind = .ok known

/-! ## What a recording does -/

theorem renewal?_of_found (found : ledger.latest? report.key = .ok stored) (now : Instant) :
    ledger.renewal? (report.execution now) now =
      .ok (if report.Renews stored then some (report.replacing now stored) else none) := by
  have found : ledger.latest? (report.execution now).key = .ok stored := found
  rw [renewal?, found]
  cases stored with
  | none =>
      rw [if_pos report.renews_none]
      rfl
  | some latest =>
      have renews : report.Renews (some latest) ↔
          latest.isSupersededBy (report.execution now) = true := by
        rw [Report.renews_some, Latest.isSupersededBy, decide_eq_true_eq]
        rfl
      simp only [renews, ok_bind]
      split <;> rfl

/-- A report that is seen is recorded: its execution is on record afterwards, and what is on record
for its key is renewed unless that ended later. -/
theorem record_of_seen (sees : ledger.Sees report)
    (about : ledger.resource? report.completion.resource = .ok resource)
    (found : ledger.latest? report.key = .ok stored) (now : Instant) :
    ∃ middle fresh, Appended ledger middle (report.execution now) ∧
      ledger.record report.completion now =
        if report.Renews stored then
          (middle.renew (report.replacing now stored) resource
              report.completion.outcome.redirectionPath,
            .ok ⟨report.executionId, fresh, true⟩)
        else (middle, .ok ⟨report.executionId, fresh, false⟩) := by
  obtain ⟨job, known, owner, role⟩ := sees.job
  obtain ⟨other, same, active⟩ := sees.resource
  rw [about] at same
  cases same
  have execution : report.execution now =
      .ofCompletion report.completion job (resource.elim true (·.active)) now := by
    rw [active]
    simp only [Report.execution, Execution.ofCompletion, owner, role]
    rfl
  have prepared : ledger.prepare report.completion now = .ok (report.execution now, resource) :=
    prepare_eq_ok_iff.2 ⟨job, known, about, execution⟩
  obtain ⟨earlier, read⟩ := sees.execution
  obtain ⟨middle, fresh, done⟩ := append_of_readable (report.execution now) read
  have appended := appended_append done
  refine ⟨middle, fresh, appended, ?_⟩
  rw [record, prepared]
  dsimp only
  rw [done]
  dsimp only
  rw [renewal?_of_found ((latest?_of_latest_eq appended.latest _).trans found)]
  by_cases renews : report.Renews stored
  · simp only [if_pos renews]
    rfl
  · simp only [if_neg renews]
    rfl

/-- The execution that a report tells of is on record afterwards, or an earlier one still is. -/
theorem execution?_record_of_seen (sees : ledger.Sees report)
    (found : ledger.latest? report.key = .ok stored) (now : Instant) :
    ∃ execution,
      (ledger.record report.completion now).1.execution? report.completion.resource
          report.completion.job report.completion.kind = .ok (some execution) ∧
        (execution = report.execution now ∨
          ledger.execution? report.completion.resource report.completion.job
            report.completion.kind = .ok (some execution)) := by
  obtain ⟨resource, about, _⟩ := sees.resource
  obtain ⟨middle, fresh, appended, same⟩ := record_of_seen sees about found now
  obtain ⟨execution, known, origin⟩ := appended.known
  refine ⟨execution, ?_, origin⟩
  rw [same]
  split
  · exact (execution?_of_executions_eq (executions_renew ..) ..).trans known
  · exact known

/-- A report that is seen changes the latest record of its key only, and that only if it renews
it. -/
theorem latest?_record_of_seen (keyed : ledger.Keyed) (sees : ledger.Sees report)
    (found : ledger.latest? report.key = .ok stored) (now : Instant) :
    (ledger.record report.completion now).1.latest? report.key =
      .ok (if report.Renews stored then some (report.replacing now stored) else stored) := by
  obtain ⟨resource, about, _⟩ := sees.resource
  obtain ⟨middle, fresh, appended, same⟩ := record_of_seen sees about found now
  rw [same]
  split
  · have own : report.key = (report.replacing now stored).key := by
      cases stored with
      | none => rfl
      | some latest => exact (keyed found).symm
    rw [latest?_of_latest_eq (latest_renew ..), latest?_putLatest, if_pos own]
  · rw [latest?_of_latest_eq appended.latest, found]

/-- The latest records of other keys stay, whether the report's own can be read or not. -/
theorem latest?_record_of_ne (keyed : ledger.Keyed) (sees : ledger.Sees report)
    (differ : key ≠ report.key) (now : Instant) :
    (ledger.record report.completion now).1.latest? key = ledger.latest? key := by
  obtain ⟨job, known, _, role⟩ := sees.job
  rcases latest_record keyed known now with same | ⟨latest, own, _, same⟩
  · exact latest?_of_latest_eq same key
  · rw [latest?_of_latest_eq same, latest?_putLatest, if_neg]
    rw [own, role]
    exact differ

theorem Keyed.record (keyed : ledger.Keyed) (sees : ledger.Sees report) (now : Instant) :
    (ledger.record report.completion now).1.Keyed := by
  obtain ⟨job, known, _⟩ := sees.job
  rcases latest_record keyed known now with same | ⟨latest, _, _, same⟩
  · exact keyed.of_latest_eq same
  · exact (keyed.putLatest latest).of_latest_eq same

/-- What is recorded does not keep the ledger from taking a report. -/
theorem Sees.record (sees : ledger.Sees report) (named : ledger.Named) (completion : Completion)
    (now : Instant) : (ledger.record completion now).1.Sees report := by
  constructor
  · rw [job?, jobs_record]
    exact sees.job
  · obtain ⟨resource, about, active⟩ := sees.resource
    rcases resource?_record named completion now report.completion.resource with
      same | ⟨_, other, execution, found, written⟩
    · exact ⟨resource, same.trans about, active⟩
    · rw [about] at found
      cases found
      refine ⟨_, written, ?_⟩
      rw [← active]
      cases resource <;> rfl
  · obtain ⟨known, read⟩ := sees.execution
    exact readable_record read completion now

end Ledger

/-! ## Deliveries -/

/-- A report that was recorded at a time. -/
structure Delivery where
  report : Report
  now : Instant
deriving DecidableEq

/-- The delivery of the execution that ended last; of several that ended together, the one that came
in last. -/
def Newest (delivery : Delivery) (deliveries : List Delivery) : Prop :=
  ∃ before after, deliveries = before ++ delivery :: after ∧
    (∀ other ∈ before, other.report.completedAt ≤ delivery.report.completedAt) ∧
    ∀ other ∈ after, other.report.completedAt < delivery.report.completedAt

namespace Newest

variable {delivery other : Delivery} {deliveries : List Delivery}

theorem mem (newest : Newest delivery deliveries) : delivery ∈ deliveries := by
  obtain ⟨before, after, rfl, _⟩ := newest
  exact List.mem_append_right _ List.mem_cons_self

theorem le (newest : Newest delivery deliveries) (mem : other ∈ deliveries) :
    other.report.completedAt ≤ delivery.report.completedAt := by
  obtain ⟨before, after, rfl, lower, less⟩ := newest
  rcases List.mem_append.1 mem with early | late
  · exact lower other early
  · rcases List.mem_cons.1 late with rfl | late
    · exact Instant.le_refl _
    · exact Instant.le_of_lt (less other late)

/-- A delivery that no other one ended after is the newest once it has come in. -/
theorem append_self
    (lower : ∀ other ∈ deliveries, other.report.completedAt ≤ delivery.report.completedAt) :
    Newest delivery (deliveries ++ [delivery]) :=
  ⟨deliveries, [], rfl, lower, List.forall_mem_nil _⟩

/-- The newest delivery stays if one comes in that ended earlier. -/
theorem append_of_lt (newest : Newest delivery deliveries)
    (less : other.report.completedAt < delivery.report.completedAt) :
    Newest delivery (deliveries ++ [other]) := by
  obtain ⟨before, after, rfl, lower, later⟩ := newest
  refine ⟨before, after ++ [other], by simp, lower, ?_⟩
  intro third mem
  rcases List.mem_append.1 mem with inside | last
  · exact later third inside
  · exact List.mem_singleton.1 last ▸ less

end Newest

/-- The deliveries on a key. -/
def onKey (key : LatestKey) (deliveries : List Delivery) : List Delivery :=
  deliveries.filter fun delivery => delivery.report.key = key

theorem onKey_append_of_eq {key : LatestKey} {deliveries : List Delivery} {delivery : Delivery}
    (same : delivery.report.key = key) :
    onKey key (deliveries ++ [delivery]) = onKey key deliveries ++ [delivery] := by
  simp [onKey, same]

theorem onKey_append_of_ne {key : LatestKey} {deliveries : List Delivery} {delivery : Delivery}
    (differ : delivery.report.key ≠ key) :
    onKey key (deliveries ++ [delivery]) = onKey key deliveries := by
  simp [onKey, differ]

/-- What has become of a ledger from a start on, with the reports that were recorded, the first one
first.  Each of them is one that the ledger takes when it comes in.  In between anything `quiet` may
happen to the ledger. -/
inductive Recordings (quiet : Ledger → Ledger → Prop) (start : Ledger) :
    Ledger → List Delivery → Prop where
  | start : Recordings quiet start start []
  | elsewhere {ledger after : Ledger} {deliveries : List Delivery}
      (history : Recordings quiet start ledger deliveries) (step : quiet ledger after) :
      Recordings quiet start after deliveries
  | record {ledger : Ledger} {deliveries : List Delivery} {report : Report}
      (history : Recordings quiet start ledger deliveries) (sees : ledger.Sees report)
      (now : Instant) :
      Recordings quiet start (ledger.record report.completion now).1
        (deliveries ++ [⟨report, now⟩])

/-- Records reports one after another, each at its time. -/
def Ledger.recordAll (deliveries : List Delivery) (ledger : Ledger) : Ledger :=
  deliveries.foldl
    (fun ledger delivery => (ledger.record delivery.report.completion delivery.now).1) ledger

/-- Reports that a ledger takes are recorded in any order. -/
theorem Recordings.recordAll {quiet : Ledger → Ledger → Prop} {start : Ledger}
    (deliveries : List Delivery) (ledger : Ledger) (earlier : List Delivery)
    (history : Recordings quiet start ledger earlier) (named : ledger.Named)
    (seen : ∀ delivery ∈ deliveries, ledger.Sees delivery.report) :
    Recordings quiet start (ledger.recordAll deliveries) (earlier ++ deliveries) := by
  induction deliveries generalizing ledger earlier with
  | nil =>
      rw [List.append_nil]
      exact history
  | cons first rest ih =>
      have next := history.record (seen first List.mem_cons_self) first.now
      rw [List.append_cons]
      apply ih _ _ next (named.record _ _)
      intro delivery mem
      exact (seen delivery (List.mem_cons_of_mem _ mem)).record named _ _

/-! ## The latest record of a key -/

namespace Ledger

/-- The latest records are as before. -/
def SameLatest (before after : Ledger) : Prop := after.latest = before.latest

/-- The latest record of a key after the deliveries on it: none, or the one of the newest of them,
made when the first of them came in. -/
def Shows (ledger : Ledger) (key : LatestKey) : List Delivery → Prop
  | [] => ledger.latest? key = .ok none
  | first :: rest => ∃ newest, Newest newest (first :: rest) ∧
      ledger.latest? key = .ok (some (newest.report.latest first.now newest.now))

variable {ledger after : Ledger} {key : LatestKey} {deliveries : List Delivery}

theorem Shows.of_latest?_eq (shows : ledger.Shows key deliveries)
    (same : after.latest? key = ledger.latest? key) : after.Shows key deliveries := by
  cases deliveries with
  | nil => exact same.trans shows
  | cons first rest =>
      obtain ⟨newest, isNewest, found⟩ := shows
      exact ⟨newest, isNewest, same.trans found⟩

/-- What is shown can be read. -/
theorem Shows.readable (shows : ledger.Shows key deliveries) :
    ∃ stored, ledger.latest? key = .ok stored := by
  cases deliveries with
  | nil => exact ⟨none, shows⟩
  | cons first rest =>
      obtain ⟨newest, _, found⟩ := shows
      exact ⟨_, found⟩

/-- One more delivery on the key either becomes the newest one or changes nothing. -/
theorem Shows.record (shows : ledger.Shows key deliveries) (keyed : ledger.Keyed)
    (delivery : Delivery) (own : ∀ other ∈ deliveries, other.report.key = key)
    (sees : ledger.Sees delivery.report) (same : delivery.report.key = key) :
    (ledger.record delivery.report.completion delivery.now).1.Shows key
      (deliveries ++ [delivery]) := by
  subst same
  cases deliveries with
  | nil =>
      refine ⟨delivery, .append_self (List.forall_mem_nil _), ?_⟩
      rw [latest?_record_of_seen keyed sees shows, if_pos delivery.report.renews_none]
      rfl
  | cons first rest =>
      obtain ⟨newest, isNewest, found⟩ := shows
      have after := latest?_record_of_seen keyed sees found delivery.now
      by_cases later : newest.report.completedAt ≤ delivery.report.completedAt
      · refine ⟨delivery,
          .append_self fun other mem => Instant.le_trans (isNewest.le mem) later, ?_⟩
        rw [after, if_pos (Report.renews_some.2 later),
          Report.replacing_latest (own newest isNewest.mem)]
      · refine ⟨newest, isNewest.append_of_lt later, ?_⟩
        rw [after, if_neg fun renews => later (Report.renews_some.1 renews)]

end Ledger

/-- Two lists of deliveries bring the same reports, in whatever order and however often. -/
def SameReports (first second : List Delivery) : Prop :=
  ∀ report : Report, (∃ delivery ∈ first, delivery.report = report) ↔
    ∃ delivery ∈ second, delivery.report = report

/-- The newest deliveries of the same reports bring the same report, if different ones ended at
different times. -/
theorem Newest.report_eq {first second : List Delivery} {one two : Delivery}
    (newest : Newest one first) (newest' : Newest two second) (same : SameReports first second)
    (distinct : ∀ delivery ∈ first, ∀ other ∈ first,
      delivery.report.completedAt = other.report.completedAt → delivery.report = other.report) :
    one.report = two.report := by
  obtain ⟨here, mem, brings⟩ := (same two.report).2 ⟨two, newest'.mem, rfl⟩
  obtain ⟨there, mem', brings'⟩ := (same one.report).1 ⟨one, newest.mem, rfl⟩
  have lower : here.report.completedAt ≤ one.report.completedAt := newest.le mem
  have upper : there.report.completedAt ≤ two.report.completedAt := newest'.le mem'
  rw [brings'] at upper
  rw [brings] at lower
  rw [← brings]
  exact distinct one newest.mem here mem (brings ▸ Instant.le_antisymm upper lower)

/-- What the latest record of a key owes to the deliveries. -/
structure FollowsNewest (key : LatestKey) (ledger : Ledger) (deliveries : List Delivery) :
    Prop where
  /-- It is made of the newest delivery on the key, at the time of the first one. -/
  shows : ledger.Shows key (onKey key deliveries)
  /-- A report on the key is never refused. -/
  taken : ∀ report now, ledger.Sees report → report.key = key →
    ∃ recording, (ledger.record report.completion now).2 = .ok recording
  /-- If different reports on the key ended at different times, any other history with the same ones
  leaves the same record behind, but for the times at which it was made and renewed. -/
  independent : ∀ ⦃start other : Ledger⦄ ⦃others : List Delivery⦄, start.Keyed →
    start.latest? key = .ok none → Recordings Ledger.SameLatest start other others →
    SameReports (onKey key deliveries) (onKey key others) →
    (∀ one ∈ onKey key deliveries, ∀ two ∈ onKey key deliveries,
      one.report.completedAt = two.report.completedAt → one.report = two.report) →
    ∀ record, ledger.latest? key = .ok (some record) →
      ∃ first ∈ (onKey key others).head?, ∃ updated,
        other.latest? key =
          .ok (some { record with createdAt := first.now, updatedAt := updated })

namespace Recordings

variable {start ledger : Ledger} {key : LatestKey} {deliveries : List Delivery}

theorem own_of_mem_onKey {delivery : Delivery} (mem : delivery ∈ onKey key deliveries) :
    delivery.report.key = key := by
  simpa using (List.mem_filter.1 mem).2

/-- Throughout a history the latest record is the one of the newest delivery on its key. -/
theorem shows (keyed : start.Keyed) (new : start.latest? key = .ok none)
    (history : Recordings Ledger.SameLatest start ledger deliveries) :
    ledger.Keyed ∧ ledger.Shows key (onKey key deliveries) := by
  induction history with
  | start => exact ⟨keyed, new⟩
  | @elsewhere before after _ _ step ih =>
      have same : after.latest = before.latest := step
      exact ⟨ih.1.of_latest_eq same, ih.2.of_latest?_eq (Ledger.latest?_of_latest_eq same key)⟩
  | @record ledger deliveries report _ sees now ih =>
      refine ⟨ih.1.record sees now, ?_⟩
      by_cases same : report.key = key
      · rw [onKey_append_of_eq same]
        exact ih.2.record ih.1 ⟨report, now⟩ (fun _ => own_of_mem_onKey) sees same
      · rw [onKey_append_of_ne same]
        exact ih.2.of_latest?_eq (Ledger.latest?_record_of_ne ih.1 sees (Ne.symm same) now)

/-- Whatever was recorded in whatever order, the latest record of a key that had none is the one of
the newest delivery on it. -/
theorem followsNewest (keyed : start.Keyed) (new : start.latest? key = .ok none)
    (history : Recordings Ledger.SameLatest start ledger deliveries) :
    FollowsNewest key ledger deliveries := by
  obtain ⟨keyed', shows⟩ := history.shows keyed new
  constructor
  · exact shows
  · rintro report now sees rfl
    obtain ⟨resource, about, _⟩ := sees.resource
    obtain ⟨stored, found⟩ := shows.readable
    obtain ⟨middle, fresh, _, same⟩ := Ledger.record_of_seen sees about found now
    rw [same]
    split
    · exact ⟨_, rfl⟩
    · exact ⟨_, rfl⟩
  · intro start' other others keyed'' new' history' same distinct record found
    obtain ⟨_, shows'⟩ := history'.shows keyed'' new'
    generalize onKey key deliveries = own at shows same distinct
    generalize onKey key others = own' at shows' same ⊢
    cases own with
    | nil =>
        have bare : ledger.latest? key = .ok none := shows
        rw [bare] at found
        cases found
    | cons first rest =>
        obtain ⟨newest, isNewest, stands⟩ := shows
        rw [found] at stands
        cases stands
        cases own' with
        | nil =>
            obtain ⟨_, mem, _⟩ := (same first.report).1 ⟨first, List.mem_cons_self, rfl⟩
            cases mem
        | cons first' rest' =>
            obtain ⟨newest', isNewest', stands'⟩ := shows'
            refine ⟨first', rfl, newest'.now, ?_⟩
            rw [stands', isNewest.report_eq isNewest' same distinct]
            rfl

end Recordings

/-! ## A ledger with one page -/

/-- One of two jobs that check a page and take it. -/
def pageJob (second : Bool) : Job where
  id := if second then "8" else "7"
  owner := ⟨"provider", "collection", "record", "execution"⟩
  tasks := [⟨.checkLink, "page", []⟩, ⟨.unconditionalDownload, "page", []⟩]
  state := .ready
  role := .object
  limits := .unlimited
  createdAt := .epoch
  updatedAt := .epoch

/-- The page. -/
def page : Resource where
  id := "page"
  url := some "http://192.0.2.1/"
  owner := (pageJob false).owner
  active := true
  lastExecution := none
  redirectionPath := []

/-- The execution of a task of one of the jobs. -/
structure PageEvent where
  second : Bool
  kind : TaskKind
  /-- It ended a second after the start of 1970, and not at the start. -/
  late : Bool

/-- The report on such an execution. -/
def PageEvent.report (event : PageEvent) : Report where
  completion :=
    { job := (pageJob event.second).id
      task := (pageJob event.second).taskId 0
      resource := page.id
      kind := event.kind
      verdict := .success
      subTasks := .untouched
      outcome := .start .memory
      node := "node-0"
      completedAt :=
        if event.late then ⟨1, 0, by decide, Instant.epoch.nanos_lt, by decide⟩ else .epoch }
  owner := (pageJob event.second).owner
  role := (pageJob event.second).role
  active := page.active

/-- Its delivery. -/
def PageEvent.delivery (event : PageEvent) : Delivery := ⟨event.report, .epoch⟩

/-- A ledger that stores the jobs and the page. -/
def pageLedger : Ledger :=
  ((Ledger.empty.putJob (pageJob false)).putJob (pageJob true)).putResource page

theorem pageLedger_keyed : pageLedger.Keyed := by
  rintro key latest ⟨⟩

theorem pageLedger_named : pageLedger.Named := by
  have bare : ((Ledger.empty.putJob (pageJob false)).putJob (pageJob true)).Named := by
    rintro id resource ⟨⟩
  exact bare.putResource page

theorem pageLedger_page : pageLedger.resource? page.id = .ok (some page) :=
  (Ledger.resource?_putResource _ page page.id).trans (if_pos rfl)

theorem pageLedger_job (second : Bool) :
    pageLedger.job? (pageJob second).id = .ok (some (pageJob second)) := by
  have written (ledger : Ledger) (other : Bool) (id : String) :
      (ledger.putJob (pageJob other)).job? id =
        if id = (pageJob other).id then .ok (some (pageJob other)) else ledger.job? id :=
    Ledger.job?_putJob Limits.whole_unlimited id
  have later := written (Ledger.empty.putJob (pageJob false)) true (pageJob second).id
  cases second with
  | true => exact later.trans (if_pos rfl)
  | false =>
      have differ : (pageJob false).id ≠ (pageJob true).id := by decide
      exact (later.trans (if_neg differ)).trans ((written _ _ _).trans (if_pos rfl))

theorem pageLedger_sees (event : PageEvent) : pageLedger.Sees event.report :=
  ⟨⟨pageJob event.second, pageLedger_job event.second, rfl, rfl⟩, ⟨some page, pageLedger_page, rfl⟩,
    none, Ledger.execution?_of_bare rfl _ _ _⟩

/-- Any executions are recorded one after another. -/
theorem recordings_page {quiet : Ledger → Ledger → Prop} (events : List PageEvent) :
    Recordings quiet pageLedger (pageLedger.recordAll (events.map PageEvent.delivery))
      (events.map PageEvent.delivery) := by
  apply Recordings.recordAll _ pageLedger [] .start pageLedger_named
  intro delivery mem
  obtain ⟨event, _, rfl⟩ := List.mem_map.1 mem
  exact pageLedger_sees event

/-- A check comes in twice, with an earlier one and a download in between. -/
def pageDeliveries : List Delivery :=
  [⟨false, .checkLink, true⟩, ⟨false, .unconditionalDownload, true⟩, ⟨true, .checkLink, false⟩,
    ⟨false, .checkLink, true⟩].map PageEvent.delivery

theorem Recordings.followsNewest_page :
    pageLedger.Keyed ∧ pageLedger.latest? ⟨page.id, .checkLink, .object⟩ = .ok none ∧
      Recordings Ledger.SameLatest pageLedger (pageLedger.recordAll pageDeliveries)
        pageDeliveries ∧
      FollowsNewest ⟨page.id, .checkLink, .object⟩ (pageLedger.recordAll pageDeliveries)
        pageDeliveries :=
  ⟨pageLedger_keyed, Ledger.latest?_of_bare rfl _, recordings_page _,
    followsNewest pageLedger_keyed (Ledger.latest?_of_bare rfl _) (recordings_page _)⟩

end MediaHarvest
