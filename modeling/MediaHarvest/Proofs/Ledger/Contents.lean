import MediaHarvest.Proofs.Ledger.Executions
import MediaHarvest.Proofs.Ledger.Readable

/-!
# What a ledger contains

To its callers the ledger is three maps beside the executions: the jobs and the resources by their
names, and the latest records by their keys.  `Contents` are these maps, and every call changes them
at one place at most.  The ledger shows its contents whatever was called before: what is read is
what was written last, jobs are listed in the order of their names, and a call leaves alone all that
it does not write.
-/

namespace MediaHarvest

open Json MediaHarvest.Partition

/-! ## Calls -/

/-- A call that may write. -/
inductive LedgerCall where
  | putJob (job : Job)
  | setJobState (id : String) (state : JobState) (now : Instant)
  | moveJob (id : String) (sources : List JobState) (target : JobState) (now : Instant)
  | putResource (resource : Resource)
  | putLatest (record : Latest)
  | putExecution (execution : Execution)
  | prune (days : UInt32) (now : Instant)

namespace LedgerCall

/-- The call gives nothing to the ledger that JSON could not give: limits are whole milliseconds. -/
def Storable : LedgerCall → Prop
  | putJob job => job.limits.Whole
  | _ => True

/-- The name of the job that may be written. -/
def job? : LedgerCall → Option String
  | putJob job => some job.id
  | setJobState id .. => some id
  | moveJob id .. => some id
  | _ => none

/-- The name of the resource that is written. -/
def resource? : LedgerCall → Option String
  | putResource resource => some resource.id
  | _ => none

/-- The key of the latest record that is written. -/
def latest? : LedgerCall → Option LatestKey
  | putLatest record => some record.key
  | _ => none

/-- The slot of the execution that is written. -/
def slot? : LedgerCall → Option Slot
  | putExecution execution => some execution.slot
  | _ => none

/-- The call drops executions. -/
def Drops : LedgerCall → Prop
  | prune .. => True
  | _ => False

end LedgerCall

/-! ## Contents -/

/-- The jobs and the resources by their names, and the latest records by their keys. -/
structure Contents where
  jobs : String → Option Job
  resources : String → Option Resource
  latest : LatestKey → Option Latest

namespace Contents

/-- Nothing is contained. -/
def empty : Contents := ⟨fun _ => none, fun _ => none, fun _ => none⟩

/-- A call writes at one place, or nowhere. -/
def perform (contents : Contents) : LedgerCall → Contents
  | .putJob job => { contents with jobs := Function.update contents.jobs job.id (some job) }
  | .setJobState id state now =>
      { contents with
        jobs := Function.update contents.jobs id ((contents.jobs id).map (·.withState state now)) }
  | .moveJob id sources target now =>
      { contents with
        jobs := Function.update contents.jobs id
          ((contents.jobs id).map (Ledger.moved · sources target now)) }
  | .putResource resource =>
      { contents with
        resources := Function.update contents.resources resource.id (some resource) }
  | .putLatest record =>
      { contents with latest := Function.update contents.latest record.key (some record) }
  | .putExecution _ | .prune .. => contents

/-- What calls leave behind one after another. -/
def performAll (calls : List LedgerCall) (contents : Contents) : Contents :=
  calls.foldl perform contents

end Contents

namespace Ledger

variable {ledger : Ledger} {contents : Contents} {call : LedgerCall}

/-- The ledger after a call; one that fails changes nothing. -/
def perform (ledger : Ledger) : LedgerCall → Ledger
  | .putJob job => ledger.putJob job
  | .setJobState id state now =>
      ((ledger.setJobState id state now).toOption.map Prod.fst).getD ledger
  | .moveJob id sources target now =>
      ((ledger.moveJob id sources target now).toOption.map Prod.fst).getD ledger
  | .putResource resource => ledger.putResource resource
  | .putLatest record => ledger.putLatest record
  | .putExecution execution => ledger.putExecution execution
  | .prune days now => ((ledger.prune days now).toOption.map Prod.fst).getD ledger

/-- The ledger after calls one after another. -/
def performAll (calls : List LedgerCall) (ledger : Ledger) : Ledger := calls.foldl perform ledger

/-! ## What is stored -/

theorem jobKey_injective : Function.Injective jobKey := fun _ _ => jobKey_inj.1

theorem resourceKey_injective : Function.Injective resourceKey := fun _ _ => resourceKey_inj.1

theorem latestKey_injective : Function.Injective latestKey := fun _ _ => latestKey_inj.1

/-- The partitions keep the contents, and every job can be read and stands under its own name. -/
structure Stores (ledger : Ledger) (contents : Contents) : Prop where
  jobs : Keeps Job.codec jobKey ledger.jobs contents.jobs
  resources : Keeps Resource.codec resourceKey ledger.resources contents.resources
  latest : Keeps Latest.codec latestKey ledger.latest contents.latest
  whole : ∀ id job, contents.jobs id = some job → job.limits.Whole
  named : ∀ id job, contents.jobs id = some job → job.id = id

namespace Stores

theorem empty : Stores Ledger.empty Contents.empty where
  jobs := keeps_empty _ _
  resources := keeps_empty _ _
  latest := keeps_empty _ _
  whole := by rintro id job ⟨⟩
  named := by rintro id job ⟨⟩

variable (stores : Stores ledger contents)

include stores

theorem job? (id : String) : ledger.job? id = .ok (contents.jobs id) :=
  stores.jobs.fetch jobKey_injective
    (fun id job stored => Job.codec_readsBack (stores.whole id job stored)) id

theorem resource? (id : String) : ledger.resource? id = .ok (contents.resources id) :=
  stores.resources.fetch resourceKey_injective
    (fun _ resource _ => Resource.codec_readsBack resource) id

theorem latest? (key : LatestKey) : ledger.latest? key = .ok (contents.latest key) :=
  stores.latest.fetch latestKey_injective (fun _ record _ => Latest.codec_readsBack record) key

theorem putJob {job : Job} (whole : job.limits.Whole) :
    Stores (ledger.putJob job)
      { contents with jobs := Function.update contents.jobs job.id (some job) } where
  jobs := stores.jobs.insert jobKey_injective job.id job
  resources := stores.resources
  latest := stores.latest
  whole := by
    intro id other found
    dsimp only at found
    rw [Function.update_apply] at found
    split at found
    · cases found
      exact whole
    · exact stores.whole id other found
  named := by
    intro id other found
    dsimp only at found
    rw [Function.update_apply] at found
    split at found
    · next same =>
      cases found
      exact same.symm
    · exact stores.named id other found

/-! ## Changes of state -/

/-- A new state is written if there is such a job. -/
theorem setJobState_eq (id : String) (state : JobState) (now : Instant) :
    ledger.setJobState id state now =
      match contents.jobs id with
      | none => .error (.jobNotFound id)
      | some job => .ok (ledger.putJob (job.withState state now), job.withState state now) := by
  rw [setJobState, Ledger.job, stores.job?]
  cases contents.jobs id <;> rfl

/-- A move is made if there is such a job, and it leaves the moved job behind. -/
theorem moveJob_eq (id : String) (sources : List JobState) (target : JobState) (now : Instant) :
    ledger.moveJob id sources target now =
      match contents.jobs id with
      | none => .error (.jobNotFound id)
      | some job =>
          .ok (if job.state = target ∨ job.state ∉ sources then ledger
            else ledger.putJob (job.withState target now), moved job sources target now) := by
  have found := stores.job? id
  cases known : contents.jobs id with
  | none =>
      rw [known] at found
      rw [moveJob, Ledger.job, found]
      rfl
  | some job =>
      rw [known] at found
      rw [moveJob, job_eq_ok_iff.2 found, ok_bind]
      dsimp only [moved]
      split <;> rfl

/-! ## Every call -/

omit stores in
theorem update_of_none {id : String} (unknown : contents.jobs id = none) :
    Function.update contents.jobs id none = contents.jobs := by
  rw [← unknown, Function.update_eq_self]

/-- A job that was replaced by another state of itself. -/
theorem restate {id : String} {before job : Job} (known : contents.jobs id = some before)
    (named : job.id = before.id) (whole : job.limits = before.limits) :
    Stores (ledger.putJob job)
      { contents with jobs := Function.update contents.jobs id (some job) } := by
  have own : job.id = id := named.trans (stores.named id before known)
  have sized : job.limits.Whole := by
    rw [whole]
    exact stores.whole id before known
  have written := stores.putJob sized
  rwa [own] at written

/-- A call changes what is stored as it changes the contents. -/
theorem perform (storable : call.Storable) :
    Stores (ledger.perform call) (contents.perform call) := by
  cases call with
  | putJob job => exact stores.putJob storable
  | setJobState id state now =>
      rw [Ledger.perform, Contents.perform, stores.setJobState_eq]
      cases known : contents.jobs id with
      | none =>
          rw [Option.map_none, update_of_none known]
          exact stores
      | some job => exact stores.restate known rfl rfl
  | moveJob id sources target now =>
      rw [Ledger.perform, Contents.perform, stores.moveJob_eq]
      cases known : contents.jobs id with
      | none =>
          rw [Option.map_none, update_of_none known]
          exact stores
      | some job =>
          rw [Option.map_some, moved]
          by_cases stays : job.state = target ∨ job.state ∉ sources
          · simp only [if_pos stays]
            rw [← known, Function.update_eq_self]
            exact stores
          · simp only [if_neg stays]
            exact stores.restate known rfl rfl
  | putResource resource =>
      exact { stores with resources := stores.resources.insert resourceKey_injective _ resource }
  | putLatest record =>
      exact { stores with latest := stores.latest.insert latestKey_injective _ record }
  | putExecution execution => exact { stores with }
  | prune days now =>
      rw [Ledger.perform, Ledger.prune]
      split
      · exact stores
      · exact { stores with }

end Stores

/-! ## Lists of jobs -/

theorem append_lt_append_iff {front first second : Bytes} :
    front ++ first < front ++ second ↔ first < second := by
  induction front with
  | nil => rfl
  | cons byte rest ih => simp [ih]

/-- The keys of jobs are in the order of their names. -/
theorem jobKey_lt_iff {first second : String} :
    jobKey first < jobKey second ↔ Text.utf8 first < Text.utf8 second := by
  rw [jobKey, jobKey, Text.utf8_append, Text.utf8_append, append_lt_append_iff]

theorem jobFront_prefix (id : String) : jobFront <+: jobKey id := by
  rw [jobFront, jobKey, Text.utf8_append]
  exact List.prefix_append _ _

/-- The stored jobs are listed in the order of their names, each once. -/
theorem Stores.jobList (stores : Stores ledger contents) :
    ∃ jobs, ledger.jobList = .ok jobs ∧
      (jobs.map fun job => Text.utf8 job.id).Pairwise (· < ·) ∧
      ∀ job, job ∈ jobs ↔ contents.jobs job.id = some job := by
  obtain ⟨pairs, answer, ascending, mem_iff⟩ := stores.jobs.scan jobKey_injective
    (fun id job stored => Job.codec_readsBack (stores.whole id job stored)) jobFront
  have own {pair : String × Job} (mem : pair ∈ pairs) : pair.2.id = pair.1 :=
    stores.named _ _ ((mem_iff ..).1 mem).1
  refine ⟨pairs.map Prod.snd, answer, ?_, fun job => ?_⟩
  · rw [List.map_map, List.pairwise_map]
    apply (List.pairwise_map.1 ascending).imp_of_mem
    intro one two mem mem' below
    rw [jobKey_lt_iff, ← own mem, ← own mem'] at below
    exact below
  · constructor
    · intro mem
      obtain ⟨pair, inside, rfl⟩ := List.mem_map.1 mem
      rw [own inside]
      exact ((mem_iff ..).1 inside).1
    · intro stored
      exact List.mem_map.2 ⟨(job.id, job), (mem_iff ..).2 ⟨stored, jobFront_prefix _⟩, rfl⟩

/-! ## What a call leaves alone -/

/-- What a call does not write is read as before. -/
structure LeavesOthers (call : LedgerCall) (before after : Ledger) : Prop where
  job : ∀ id, call.job? ≠ some id → after.job? id = before.job? id
  jobs : call.job? = none → after.jobList = before.jobList
  resource : ∀ id, call.resource? ≠ some id → after.resource? id = before.resource? id
  latest : ∀ key, call.latest? ≠ some key → after.latest? key = before.latest? key
  /-- An execution is written under one key. -/
  execution : ¬call.Drops → ∀ slot : Slot, (∀ other ∈ call.slot?, other.key ≠ slot.key) →
    after.execution? slot.resource slot.job slot.kind =
      before.execution? slot.resource slot.job slot.kind
  executions : ¬call.Drops → ∀ resource,
    (∀ other ∈ call.slot?, ¬executionFront resource <+: other.key) →
    after.executionsOf resource = before.executionsOf resource
  notes : ¬call.Drops → after.notes = before.notes

theorem fetch_insert_of_ne {α : Type} (codec : Codec α) (partition : Partition) (bytes : Bytes)
    {key wanted : Bytes} (differ : wanted ≠ key) :
    fetch codec (partition.insert key bytes) wanted = fetch codec partition wanted := by
  rw [fetch, SortedMap.get?_insert, if_neg differ]
  rfl

/-- What is written under a key is not found under a front that the key does not start with. -/
theorem under_insert_of_apart (partition : Partition) (bytes : Bytes) {front key : Bytes}
    (apart : ¬front <+: key) :
    Partition.under (partition.insert key bytes) front = Partition.under partition front := by
  have outside : ¬front.isPrefixOf key = true := mt List.isPrefixOf_iff_prefix.1 apart
  apply congrArg (List.map Prod.snd)
  change (SortedMap.insertEntry key bytes partition.entries).filter _ = _
  generalize partition.entries = entries
  induction entries with
  | nil => exact List.filter_cons_of_neg outside
  | cons head rest ih =>
      rcases head with ⟨k, v⟩
      rw [SortedMap.insertEntry]
      split
      · exact List.filter_cons_of_neg outside
      · next notBelow =>
        split
        · rw [List.filter_cons, List.filter_cons, ih]
        · next notAbove =>
          obtain rfl := KeyOrder.tri notBelow notAbove
          rw [List.filter_cons, List.filter_cons, if_neg outside, if_neg outside]

theorem leavesOthers_refl (call : LedgerCall) (ledger : Ledger) :
    LeavesOthers call ledger ledger :=
  ⟨fun _ _ => rfl, fun _ => rfl, fun _ _ => rfl, fun _ _ => rfl, fun _ _ _ => rfl,
    fun _ _ _ => rfl, fun _ => rfl⟩

/-- Writing a job leaves the others alone. -/
theorem leavesOthers_putJob {call : LedgerCall} (ledger : Ledger) (job : Job)
    (own : call.job? = some job.id) : LeavesOthers call ledger (ledger.putJob job) where
  job := fun id differ =>
    fetch_insert_of_ne _ _ _ fun same => differ (own.trans (congrArg some (jobKey_inj.1 same).symm))
  jobs := fun none => by rw [own] at none; cases none
  resource := fun _ _ => rfl
  latest := fun _ _ => rfl
  execution := fun _ _ _ => rfl
  executions := fun _ _ _ => rfl
  notes := fun _ => rfl

theorem Stores.leavesOthers (stores : Stores ledger contents) (call : LedgerCall) :
    LeavesOthers call ledger (ledger.perform call) := by
  cases call with
  | putJob job => exact leavesOthers_putJob ledger job rfl
  | setJobState id state now =>
      rw [Ledger.perform, stores.setJobState_eq]
      cases known : contents.jobs id with
      | none => exact leavesOthers_refl ..
      | some job =>
          exact leavesOthers_putJob ledger _ (congrArg some (stores.named id job known).symm)
  | moveJob id sources target now =>
      rw [Ledger.perform, stores.moveJob_eq]
      cases known : contents.jobs id with
      | none => exact leavesOthers_refl ..
      | some job =>
          by_cases stays : job.state = target ∨ job.state ∉ sources
          · simp only [if_pos stays]
            exact leavesOthers_refl ..
          · simp only [if_neg stays]
            exact leavesOthers_putJob ledger _ (congrArg some (stores.named id job known).symm)
  | putResource resource =>
      exact { leavesOthers_refl _ ledger with
        resource := fun id differ => fetch_insert_of_ne _ _ _ fun same =>
          differ (congrArg some (resourceKey_inj.1 same).symm) }
  | putLatest record =>
      exact { leavesOthers_refl _ ledger with
        latest := fun key differ => fetch_insert_of_ne _ _ _ fun same =>
          differ (congrArg some (latestKey_inj.1 same).symm) }
  | putExecution execution =>
      exact { leavesOthers_refl _ ledger with
        execution := fun _ slot differ => fetch_insert_of_ne _ _ _ fun same =>
          differ execution.slot rfl same.symm
        executions := fun _ resource apart => congrArg (readAll Execution.codec)
          (under_insert_of_apart _ _ (apart execution.slot rfl)) }
  | prune days now =>
      rw [Ledger.perform, Ledger.prune]
      split
      · exact leavesOthers_refl ..
      · exact ⟨fun _ _ => rfl, fun _ => rfl, fun _ _ => rfl, fun _ _ => rfl,
          fun keeps => absurd trivial keeps, fun keeps => absurd trivial keeps,
          fun keeps => absurd trivial keeps⟩

/-! ## Any number of calls -/

theorem Stores.performAll (calls : List LedgerCall) (stores : Stores ledger contents)
    (storable : ∀ call ∈ calls, call.Storable) :
    Stores (ledger.performAll calls) (contents.performAll calls) := by
  induction calls generalizing ledger contents with
  | nil => exact stores
  | cons call rest ih =>
      exact ih (stores.perform (storable call List.mem_cons_self))
        fun other mem => storable other (List.mem_cons_of_mem _ mem)

/-- What a ledger shows of its contents. -/
structure Faithful (ledger : Ledger) (contents : Contents) : Prop where
  job : ∀ id, ledger.job? id = .ok (contents.jobs id)
  resource : ∀ id, ledger.resource? id = .ok (contents.resources id)
  latest : ∀ key, ledger.latest? key = .ok (contents.latest key)
  /-- The jobs are listed in the order of the bytes of their names, each once. -/
  list : ∃ jobs, ledger.jobList = .ok jobs ∧
    (jobs.map fun job => Text.utf8 job.id).Pairwise (· < ·) ∧
    ∀ job, job ∈ jobs ↔ contents.jobs job.id = some job
  /-- Each job stands under its own name. -/
  named : ∀ id job, contents.jobs id = some job → job.id = id
  /-- A new state is answered with the job that is stored afterwards. -/
  restated : ∀ id state now, (·.2) <$> ledger.setJobState id state now =
    ((contents.perform (.setJobState id state now)).jobs id).elim (.error (.jobNotFound id)) .ok
  /-- So is a move. -/
  moved : ∀ id sources target now, (·.2) <$> ledger.moveJob id sources target now =
    ((contents.perform (.moveJob id sources target now)).jobs id).elim
      (.error (.jobNotFound id)) .ok

theorem Stores.faithful (stores : Stores ledger contents) : Faithful ledger contents where
  job := stores.job?
  resource := stores.resource?
  latest := stores.latest?
  list := stores.jobList
  named := stores.named
  restated := by
    intro id state now
    rw [stores.setJobState_eq, Contents.perform]
    dsimp only
    rw [Function.update_self]
    cases contents.jobs id <;> rfl
  moved := by
    intro id sources target now
    rw [stores.moveJob_eq, Contents.perform]
    dsimp only
    rw [Function.update_self]
    cases contents.jobs id <;> rfl

/-- Whatever was called, the ledger shows what was written last, and the next call leaves alone all
that it does not write. -/
theorem faithful_performAll (calls : List LedgerCall)
    (storable : ∀ call ∈ calls, call.Storable) :
    Faithful (empty.performAll calls) (Contents.empty.performAll calls) ∧
      ∀ next, LeavesOthers next (empty.performAll calls) ((empty.performAll calls).perform next) :=
  have stores := Stores.empty.performAll calls storable
  ⟨stores.faithful, stores.leavesOthers⟩

/-- Resources whose names go on from one another with a colon, and a job that is paused. -/
def colonCalls : List LedgerCall :=
  [.putResource page, .putResource { page with id := "page:CHECK_LINK" }, .putJob (pageJob true),
    .putJob (pageJob false), .setJobState "7" .pause .epoch,
    .putLatest ((PageEvent.report ⟨false, .checkLink, false⟩).latest .epoch .epoch),
    .moveJob "8" [.ready] .running .epoch, .prune 90 .epoch]

theorem faithful_colonCalls :
    (∀ call ∈ colonCalls, call.Storable) ∧
      Faithful (empty.performAll colonCalls) (Contents.empty.performAll colonCalls) ∧
      ∀ next, LeavesOthers next (empty.performAll colonCalls)
        ((empty.performAll colonCalls).perform next) :=
  have storable : ∀ call ∈ colonCalls, call.Storable := by
    simp [colonCalls, LedgerCall.Storable, pageJob, Limits.whole_unlimited]
  ⟨storable, faithful_performAll colonCalls storable⟩

end Ledger

end MediaHarvest
