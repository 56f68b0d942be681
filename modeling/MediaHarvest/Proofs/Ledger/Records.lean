import MediaHarvest.Ledger.Recording
import MediaHarvest.Proofs.Ledger.Jobs
import MediaHarvest.Proofs.Text.Cutting

/-!
# Resources and latest records in the ledger

Different keys have different texts, since neither a kind nor a role has a colon in its name.  So a
latest record that was written is found under its own key and changes nothing under any other.
Recording an execution leaves the latest records as they are, or puts what was measured under the
key of the execution.
-/

namespace MediaHarvest

/-! ## Keys -/

theorem TaskKind.colon_free (kind : TaskKind) : ':' ∉ kind.name.toList := by
  cases kind <;> decide

theorem TaskKind.zero_free (kind : TaskKind) : '\x00' ∉ kind.name.toList := by
  cases kind <;> decide

theorem TaskKind.name_inj {first second : TaskKind} :
    first.name = second.name ↔ first = second := by
  cases first <;> cases second <;> decide

theorem SourceRole.colon_free (role : SourceRole) : ':' ∉ role.name.toList := by
  cases role <;> decide

theorem SourceRole.name_inj {first second : SourceRole} :
    first.name = second.name ↔ first = second := by
  cases first <;> cases second <;> decide

/-- The text of a key is its resource, its kind and its role, with colons between them. -/
theorem LatestKey.toList_text (key : LatestKey) :
    key.text.toList =
      (key.resource.toList ++ ':' :: key.kind.name.toList) ++ ':' :: key.role.name.toList := by
  simp [text, toString, String.toList_append]

theorem LatestKey.text_inj {first second : LatestKey} :
    first.text = second.text ↔ first = second := by
  constructor
  · intro same
    have lists := congrArg String.toList same
    rw [toList_text, toList_text] at lists
    obtain ⟨fronts, roles⟩ :=
      cut_at_last first.role.colon_free second.role.colon_free lists
    obtain ⟨resources, kinds⟩ :=
      cut_at_last first.kind.colon_free second.kind.colon_free fronts
    rcases first with ⟨resource, kind, role⟩
    rcases second with ⟨resource', kind', role'⟩
    obtain rfl : resource = resource' := String.toList_inj.1 resources
    obtain rfl : kind = kind' := TaskKind.name_inj.1 (String.toList_inj.1 kinds)
    obtain rfl : role = role' := SourceRole.name_inj.1 (String.toList_inj.1 roles)
    rfl
  · rintro rfl
    rfl

namespace Ledger

variable {ledger after : Ledger} {key : LatestKey} {latest : Latest}

theorem latestKey_inj {first second : LatestKey} :
    latestKey first = latestKey second ↔ first = second := by
  constructor
  · intro same
    rw [latestKey, latestKey, Text.utf8_append, Text.utf8_append] at same
    exact LatestKey.text_inj.1 (Text.utf8_injective (List.append_cancel_left same))
  · rintro rfl
    rfl

/-- Within a job, executions of different resources or kinds have different keys. -/
theorem executionKey_inj {resource resource' job : String} {kind kind' : TaskKind} :
    executionKey resource job kind = executionKey resource' job kind' ↔
      resource = resource' ∧ kind = kind' := by
  constructor
  · intro same
    have texts : ("stat:" ++ resource ++ "\x00" ++ job).toList ++ '\x00' :: kind.name.toList =
        ("stat:" ++ resource' ++ "\x00" ++ job).toList ++ '\x00' :: kind'.name.toList := by
      simpa [String.toList_append] using congrArg String.toList (Text.utf8_injective same)
    obtain ⟨fronts, kinds⟩ := cut_at_last kind.zero_free kind'.zero_free texts
    refine ⟨?_, TaskKind.name_inj.1 (String.toList_inj.1 kinds)⟩
    simp only [String.toList_append] at fronts
    have resources := List.append_cancel_right (List.append_cancel_right fronts)
    exact String.toList_inj.1 (List.append_cancel_left resources)
  · rintro ⟨rfl, rfl⟩
    rfl

/-! ## What is written -/

/-- A latest record that was written is the one that is found under its key. -/
theorem latest?_putLatest (ledger : Ledger) (latest : Latest) (key : LatestKey) :
    (ledger.putLatest latest).latest? key =
      if key = latest.key then .ok (some latest) else ledger.latest? key := by
  rw [latest?, putLatest, fetch_insert (Latest.codec_readsBack latest)]
  simp only [latestKey_inj]
  rfl

theorem resourceKey_inj {first second : String} :
    resourceKey first = resourceKey second ↔ first = second := by
  constructor
  · intro same
    rw [resourceKey, resourceKey, Text.utf8_append, Text.utf8_append] at same
    exact Text.utf8_injective (List.append_cancel_left same)
  · rintro rfl
    rfl

/-- A resource that was written is the one that is found under its name. -/
theorem resource?_putResource (ledger : Ledger) (resource : Resource) (id : String) :
    (ledger.putResource resource).resource? id =
      if id = resource.id then .ok (some resource) else ledger.resource? id := by
  rw [resource?, putResource, fetch_insert (Resource.codec_readsBack resource)]
  simp only [resourceKey_inj]
  rfl

/-- An execution that was written is the one that is found for its resource, job and kind. -/
theorem execution?_putExecution (ledger : Ledger) (execution : Execution) (resource job : String)
    (kind : TaskKind) :
    (ledger.putExecution execution).execution? resource job kind =
      if executionKey resource job kind =
          executionKey execution.resource execution.measurements.job execution.kind then
        .ok (some execution)
      else ledger.execution? resource job kind := by
  rw [execution?, putExecution, fetch_insert (Execution.codec_readsBack execution)]
  rfl

theorem latest?_of_bare (bare : ledger.latest = ∅) (key : LatestKey) :
    ledger.latest? key = .ok none := by
  rw [latest?, bare]
  rfl

theorem execution?_of_bare (bare : ledger.executions = ∅) (resource job : String)
    (kind : TaskKind) : ledger.execution? resource job kind = .ok none := by
  rw [execution?, bare]
  rfl

theorem resource?_of_bare (bare : ledger.resources = ∅) (id : String) :
    ledger.resource? id = .ok none := by
  rw [resource?, bare]
  rfl

theorem latest?_of_latest_eq (same : after.latest = ledger.latest) (key : LatestKey) :
    after.latest? key = ledger.latest? key := by
  rw [latest?, same]
  rfl

/-! ## Recording -/

/-- Every latest record stands under its own key. -/
def Keyed (ledger : Ledger) : Prop := ∀ ⦃key latest⦄, ledger.latest? key = .ok (some latest) →
  latest.key = key

theorem Keyed.putLatest (keyed : ledger.Keyed) (latest : Latest) :
    (ledger.putLatest latest).Keyed := by
  intro key other found
  rw [latest?_putLatest] at found
  split at found
  · next same =>
    cases found
    exact same.symm
  · exact keyed found

theorem Keyed.of_latest_eq (keyed : ledger.Keyed) (same : after.latest = ledger.latest) :
    after.Keyed := by
  intro key latest found
  rw [latest?_of_latest_eq same] at found
  exact keyed found

/-- Every resource stands under its own name. -/
def Named (ledger : Ledger) : Prop := ∀ ⦃id resource⦄,
  ledger.resource? id = .ok (some resource) → resource.id = id

theorem Named.putResource (named : ledger.Named) (resource : Resource) :
    (ledger.putResource resource).Named := by
  intro id other found
  rw [resource?_putResource] at found
  split at found
  · next same =>
    cases found
    exact same.symm
  · exact named found

theorem resource?_of_resources_eq (same : after.resources = ledger.resources) (id : String) :
    after.resource? id = ledger.resource? id := by
  rw [resource?, same]
  rfl

theorem Named.of_resources_eq (named : ledger.Named) (same : after.resources = ledger.resources) :
    after.Named := by
  intro id resource found
  rw [resource?_of_resources_eq same] at found
  exact named found

variable {completion : Completion} {execution : Execution} {job : Job} {now : Instant}

/-- A report on a stored job tells of an execution if its resource can be read. -/
theorem prepare_eq_ok_iff {resource : Option Resource} :
    ledger.prepare completion now = .ok (execution, resource) ↔
      ∃ job, ledger.job? completion.job = .ok (some job) ∧
        ledger.resource? completion.resource = .ok resource ∧
        execution = .ofCompletion completion job (resource.elim true (·.active)) now := by
  rw [prepare]
  constructor
  · intro prepared
    obtain ⟨stored, read, prepared⟩ := bind_eq_ok_iff.1 prepared
    cases stored with
    | none => cases prepared
    | some job =>
        obtain ⟨answer, about, ended⟩ := bind_eq_ok_iff.1 prepared
        cases ended
        refine ⟨job, mapError_eq_ok_iff.1 read, mapError_eq_ok_iff.1 about, ?_⟩
        cases resource <;> rfl
  · rintro ⟨job, found, about, rfl⟩
    rw [found, about]
    cases resource <;> rfl

/-- An execution was written, unless there was one already. -/
structure Appended (ledger after : Ledger) (execution : Execution) : Prop where
  jobs : after.jobs = ledger.jobs
  resources : after.resources = ledger.resources
  latest : after.latest = ledger.latest
  /-- This or an earlier execution of the same resource, job and kind is on record. -/
  known : ∃ other,
    after.execution? execution.resource execution.measurements.job execution.kind =
        .ok (some other) ∧
      (other = execution ∨
        ledger.execution? execution.resource execution.measurements.job execution.kind =
          .ok (some other))
  others : ∀ resource job kind,
    executionKey resource job kind ≠
        executionKey execution.resource execution.measurements.job execution.kind →
      after.execution? resource job kind = ledger.execution? resource job kind

/-- An execution that can be read can be read afterwards. -/
theorem Appended.readable (appended : Appended ledger after execution) {resource job : String}
    {kind : TaskKind} {known : Option Execution}
    (read : ledger.execution? resource job kind = .ok known) :
    ∃ known, after.execution? resource job kind = .ok known := by
  by_cases same : executionKey resource job kind =
      executionKey execution.resource execution.measurements.job execution.kind
  · obtain ⟨other, found, _⟩ := appended.known
    exact ⟨some other, (congrArg (fetch Execution.codec after.executions) same).trans found⟩
  · exact ⟨known, (appended.others _ _ _ same).trans read⟩

theorem appended_append {fresh : Bool} (done : ledger.append execution = .ok (after, fresh)) :
    Appended ledger after execution := by
  rw [append] at done
  obtain ⟨known, found, ended⟩ := bind_eq_ok_iff.1 done
  cases known with
  | none =>
      cases ended
      refine ⟨rfl, rfl, rfl, ⟨execution, ?_, .inl rfl⟩, ?_⟩
      · exact (execution?_putExecution ..).trans (if_pos rfl)
      · exact fun _ _ _ differ => (execution?_putExecution ..).trans (if_neg differ)
  | some other =>
      cases ended
      exact ⟨rfl, rfl, rfl, ⟨other, found, .inr found⟩, fun _ _ _ _ => rfl⟩

/-- An execution is appended if the one on record can be read. -/
theorem append_of_readable (execution : Execution) {known : Option Execution}
    (found : ledger.execution? execution.resource execution.measurements.job execution.kind =
      .ok known) :
    ∃ after fresh, ledger.append execution = .ok (after, fresh) := by
  rw [append, found]
  cases known with
  | none => exact ⟨_, true, rfl⟩
  | some other => exact ⟨_, false, rfl⟩

/-- A renewed record has the key and the measurements of the execution. -/
theorem renewal?_eq_some (keyed : ledger.Keyed)
    (renewed : ledger.renewal? execution now = .ok (some latest)) :
    latest.key = execution.key ∧ latest.measurements = execution.measurements := by
  rw [renewal?] at renewed
  obtain ⟨known, found, ended⟩ := bind_eq_ok_iff.1 renewed
  cases known with
  | none =>
      cases ended
      exact ⟨rfl, rfl⟩
  | some former =>
      dsimp only at ended
      split at ended
      · have key : former.key = execution.key := keyed found
        cases ended
        exact ⟨key, rfl⟩
      · cases ended

theorem latest_renew (ledger : Ledger) (latest : Latest) (resource : Option Resource)
    (path : List String) :
    (ledger.renew latest resource path).latest = (ledger.putLatest latest).latest := by
  cases resource <;> rfl

/-- What a recording leaves behind. -/
inductive Written (ledger : Ledger) (completion : Completion) (now : Instant) : Ledger → Prop where
  | nothing : Written ledger completion now ledger
  /-- The execution is on record, and the latest record of its key stays. -/
  | appended {after : Ledger} {job : Job} {active : Bool}
      (found : ledger.job? completion.job = .ok (some job))
      (appended : Appended ledger after (.ofCompletion completion job active now)) :
      Written ledger completion now after
  /-- The latest record is renewed as well. -/
  | renewed {middle : Ledger} {job : Job} {active : Bool} {latest : Latest}
      {resource : Option Resource} (found : ledger.job? completion.job = .ok (some job))
      (about : ledger.resource? completion.resource = .ok resource)
      (appended : Appended ledger middle (.ofCompletion completion job active now))
      (renewal : middle.renewal? (.ofCompletion completion job active now) now =
        .ok (some latest)) :
      Written ledger completion now
        (middle.renew latest resource completion.outcome.redirectionPath)

/-- Every recording leaves one of these behind. -/
theorem written_record (ledger : Ledger) (completion : Completion) (now : Instant) :
    Written ledger completion now (ledger.record completion now).1 := by
  rw [record]
  split
  · exact .nothing
  · next execution resource prepared =>
    obtain ⟨job, found, about, rfl⟩ := prepare_eq_ok_iff.1 prepared
    split
    · exact .nothing
    · next middle fresh done =>
      have appended := appended_append done
      split
      · exact .appended found appended
      · exact .appended found appended
      · next latest renewal => exact .renewed found about appended renewal

theorem jobs_renew (ledger : Ledger) (latest : Latest) (resource : Option Resource)
    (path : List String) : (ledger.renew latest resource path).jobs = ledger.jobs := by
  cases resource <;> rfl

theorem executions_renew (ledger : Ledger) (latest : Latest) (resource : Option Resource)
    (path : List String) : (ledger.renew latest resource path).executions = ledger.executions := by
  cases resource <;> rfl

/-- Renewing a latest record points its resource to the execution; other resources stay. -/
theorem resource?_renew (named : ledger.Named) {name : String} {resource : Option Resource}
    (about : ledger.resource? name = .ok resource) (latest : Latest) (path : List String)
    (id : String) :
    (ledger.renew latest resource path).resource? id =
      if id = name then .ok (resource.map (·.withLastExecution latest.execution path))
      else ledger.resource? id := by
  cases resource with
  | none =>
      split
      · next same => exact same ▸ about
      · rfl
  | some resource =>
      have own : resource.id = name := named about
      exact (resource?_putResource ..).trans (by rw [← own]; rfl)

theorem Named.renew (named : ledger.Named) (latest : Latest) (resource : Option Resource)
    (path : List String) : (ledger.renew latest resource path).Named := by
  cases resource with
  | none => exact named
  | some resource =>
      have kept : (ledger.putLatest latest).Named := named
      exact kept.putResource _

theorem Named.record (named : ledger.Named) (completion : Completion) (now : Instant) :
    (ledger.record completion now).1.Named := by
  have written := ledger.written_record completion now
  generalize (ledger.record completion now).1 = after at written ⊢
  cases written with
  | nothing => exact named
  | appended found appended => exact named.of_resources_eq appended.resources
  | renewed found about appended renewal =>
      exact (named.of_resources_eq appended.resources).renew _ _ _

/-- Recording a report points at most its own resource to another execution. -/
theorem resource?_record (named : ledger.Named) (completion : Completion) (now : Instant)
    (id : String) :
    (ledger.record completion now).1.resource? id = ledger.resource? id ∨
      id = completion.resource ∧ ∃ resource execution,
        ledger.resource? id = .ok resource ∧
        (ledger.record completion now).1.resource? id = .ok
          (resource.map (·.withLastExecution execution completion.outcome.redirectionPath)) := by
  have written := ledger.written_record completion now
  generalize (ledger.record completion now).1 = after at written ⊢
  cases written with
  | nothing => exact .inl rfl
  | appended found appended => exact .inl (resource?_of_resources_eq appended.resources id)
  | @renewed middle job active latest resource found about appended renewal =>
      have kept := resource?_of_resources_eq appended.resources
      rw [resource?_renew (named.of_resources_eq appended.resources) ((kept _).trans about)]
      by_cases same : id = completion.resource
      · exact .inr ⟨same, resource, latest.execution, same ▸ about, if_pos same⟩
      · rw [if_neg same]
        exact .inl (kept id)

/-- Recording a report writes no job. -/
theorem jobs_record (ledger : Ledger) (completion : Completion) (now : Instant) :
    (ledger.record completion now).1.jobs = ledger.jobs := by
  have written := ledger.written_record completion now
  generalize (ledger.record completion now).1 = after at written ⊢
  cases written with
  | nothing => rfl
  | appended found appended => exact appended.jobs
  | renewed found about appended renewal => exact (jobs_renew ..).trans appended.jobs

theorem execution?_of_executions_eq (same : after.executions = ledger.executions)
    (resource job : String) (kind : TaskKind) :
    after.execution? resource job kind = ledger.execution? resource job kind := by
  rw [execution?, same]
  rfl

/-- An execution that can be read can be read after any recording. -/
theorem readable_record {resource job : String} {kind : TaskKind} {known : Option Execution}
    (read : ledger.execution? resource job kind = .ok known) (completion : Completion)
    (now : Instant) :
    ∃ known, (ledger.record completion now).1.execution? resource job kind = .ok known := by
  have written := ledger.written_record completion now
  generalize (ledger.record completion now).1 = after at written ⊢
  cases written with
  | nothing => exact ⟨known, read⟩
  | appended found appended => exact appended.readable read
  | renewed found about appended renewal =>
      rw [execution?_of_executions_eq (executions_renew ..)]
      exact appended.readable read

/-- Recording a report writes no execution but its own. -/
theorem execution?_record {resource : String} {job : String} {kind : TaskKind}
    (differ : executionKey resource job kind ≠
      executionKey completion.resource completion.job completion.kind) :
    (ledger.record completion now).1.execution? resource job kind =
      ledger.execution? resource job kind := by
  have written := ledger.written_record completion now
  generalize (ledger.record completion now).1 = after at written ⊢
  cases written with
  | nothing => rfl
  | appended found appended => exact appended.others _ _ _ differ
  | renewed found about appended renewal =>
      rw [execution?_of_executions_eq (executions_renew ..)]
      exact appended.others _ _ _ differ

/-- Recording a report leaves the latest records as they are, or puts what was measured under the
key of the execution. -/
theorem latest_record (keyed : ledger.Keyed)
    (found : ledger.job? completion.job = .ok (some job)) (now : Instant) :
    (ledger.record completion now).1.latest = ledger.latest ∨
      ∃ latest : Latest, latest.key = ⟨completion.resource, completion.kind, job.role⟩ ∧
        latest.measurements = .ofCompletion completion ∧
        (ledger.record completion now).1.latest = (ledger.putLatest latest).latest := by
  have written := ledger.written_record completion now
  generalize (ledger.record completion now).1 = after at written ⊢
  cases written with
  | nothing => exact .inl rfl
  | appended _ appended => exact .inl appended.latest
  | @renewed middle stored active latest _ read _ appended renewal =>
      rw [found] at read
      cases read
      obtain ⟨key, measured⟩ := renewal?_eq_some (keyed.of_latest_eq appended.latest) renewal
      refine .inr ⟨latest, key, measured, (latest_renew ..).trans ?_⟩
      rw [putLatest, appended.latest]
      rfl

/-- The first execution of a key is recorded as the latest one; jobs and resources are found as
before, but for the pointer of the resource. -/
theorem record_first {resource : Resource} (found : ledger.job? completion.job = .ok (some job))
    (about : ledger.resource? completion.resource = .ok (some resource))
    (new : ledger.execution? completion.resource completion.job completion.kind = .ok none)
    (first : ledger.latest? ⟨completion.resource, completion.kind, job.role⟩ = .ok none)
    (recorded : (ledger.record completion now).1 = after) :
    (∀ id, after.job? id = ledger.job? id) ∧
      (∃ renewed : Resource, after.resource? resource.id = .ok (some renewed) ∧
        renewed.url = resource.url) ∧
      ∃ latest : Latest,
        after.latest? ⟨completion.resource, completion.kind, job.role⟩ = .ok (some latest) ∧
        latest.measurements = .ofCompletion completion := by
  let execution := Execution.ofCompletion completion job resource.active now
  have prepared : ledger.prepare completion now = .ok (execution, some resource) := by
    rw [prepare, found, about]
    rfl
  have appended : ledger.append execution = .ok (ledger.putExecution execution, true) := by
    have absent : ledger.execution? execution.resource execution.measurements.job execution.kind =
        .ok none := new
    rw [append, absent]
    rfl
  have renewed : (ledger.putExecution execution).renewal? execution now =
      .ok (some (.ofExecution execution now)) := by
    have absent : (ledger.putExecution execution).latest? execution.key = .ok none := first
    rw [renewal?, absent]
    rfl
  have written : after = (ledger.putExecution execution).renew (.ofExecution execution now)
      (some resource) completion.outcome.redirectionPath := by
    rw [← recorded, record, prepared]
    dsimp only
    rw [appended]
    dsimp only
    rw [renewed]
  subst written
  refine ⟨fun id => rfl, ⟨resource.withLastExecution execution.id
    completion.outcome.redirectionPath, ?_, rfl⟩, .ofExecution execution now, ?_, rfl⟩
  · exact (resource?_putResource ..).trans (if_pos rfl)
  · rw [latest?_of_latest_eq (latest_renew ..), latest?_putLatest]
    exact if_pos rfl

end Ledger

end MediaHarvest
