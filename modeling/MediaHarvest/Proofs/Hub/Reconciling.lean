import MediaHarvest.Proofs.Hub.FinishedOnce
import MediaHarvest.Proofs.Hub.Health
import MediaHarvest.Proofs.Ledger.Recordings

/-!
# No job is finished unheard

A second look at a job takes what was recorded in place of the reports that were lost.  An execution
is on record for a resource, a job and a kind, while a task is accounted under its own name.  So a
job is finished only after every task was heard of: by a report of its own, or by a recorded
execution of its kind on its resource.  Where a job plans nothing twice, that is one of its own.
-/

namespace MediaHarvest

open Ledger Accountant

/-! ## What was heard of a job -/

/-- The job plans a task of this name, on this resource and of this kind, at a position. -/
def Job.Plans (job : Job) (index : Nat) (task resource : String) (kind : TaskKind) : Prop :=
  task = job.taskId index ∧ ∃ planned, job.tasks[index]? = some planned ∧
    planned.resource = resource ∧ planned.kind = kind

/-- A report is one of those that the tasks of the job give rise to. -/
def Job.Owns (job : Job) (completion : Completion) : Prop :=
  completion.job = job.id ∧
    ∃ index, job.Plans index completion.task completion.resource completion.kind

/-- The task at a position was heard of. -/
inductive HeardOf (calls : List Call) (job : Job) (index : Nat) : Prop where
  /-- A report on it came in. -/
  | reported {completion : Completion} (mem : .report completion ∈ calls)
      (own : completion.job = job.id) (task : completion.task = job.taskId index)
  /-- An execution of its kind on its resource was recorded. -/
  | recorded {completion : Completion} {planned : PlannedTask}
      (mem : .record completion ∈ calls) (own : completion.job = job.id)
      (there : job.tasks[index]? = some planned) (resource : completion.resource = planned.resource)
      (kind : completion.kind = planned.kind)

theorem HeardOf.mono {calls others : List Call} {job : Job} {index : Nat}
    (heard : HeardOf calls job index) (more : calls ⊆ others) : HeardOf others job index := by
  cases heard with
  | reported mem own task => exact .reported (more mem) own task
  | recorded mem own there resource kind => exact .recorded (more mem) own there resource kind

/-- A call on the way from dispatches to reports, with second looks.  What is handed out for the
job is planned by it; what is recorded for the job is on a task that it plans, and what is recorded
for another job is not kept under a key of this one.  Anything may be reported. -/
def Call.OnRecord (job : Job) : Call → Prop
  | .dispatch id task =>
      id = job.id → ∃ index, job.Plans index task.id task.resource task.kind
  | .record completion =>
      job.Owns completion ∨ ∀ planned ∈ job.tasks,
        executionKey planned.resource job.id planned.kind ≠
          executionKey completion.resource completion.job completion.kind
  | _ => True

/-- Where a job plans no kind twice on a resource, what was heard of a task is a report of its
own. -/
theorem HeardOf.own {calls : List Call} {job : Job} {index : Nat} (heard : HeardOf calls job index)
    (distinct : (job.tasks.map fun planned => (planned.resource, planned.kind)).Nodup)
    (path : ∀ call ∈ calls, call.OnRecord job) :
    ∃ completion, (.report completion ∈ calls ∨ .record completion ∈ calls) ∧
      completion.job = job.id ∧ completion.task = job.taskId index := by
  cases heard with
  | @reported completion mem own task => exact ⟨completion, .inl mem, own, task⟩
  | @recorded completion planned mem own there resource kind =>
      refine ⟨completion, .inr mem, own, ?_⟩
      rcases path _ mem with ⟨_, other, name, twin, there', resource', kind'⟩ | apart
      · have pair : (job.tasks.map fun planned => (planned.resource, planned.kind))[index]? =
            (job.tasks.map fun planned => (planned.resource, planned.kind))[other]? := by
          rw [List.getElem?_map, List.getElem?_map, there, there', Option.map_some,
            Option.map_some, resource', kind', resource, kind]
        have inside : index < (job.tasks.map fun planned =>
            (planned.resource, planned.kind)).length := by
          rw [List.length_map]
          exact (List.getElem?_eq_some_iff.1 there).1
        rw [name, (List.getElem?_inj inside distinct).1 pair]
      · refine absurd ?_ (apart planned (List.mem_of_getElem? there))
        rw [own, resource, kind]

namespace Hub

variable {hub after : Hub} {job last : Job} {calls : List Call} {now : Instant}

/-- A task that is accounted is the one that the job plans at a position, and has ended only if it
was heard of. -/
structure Placed (job : Job) (calls : List Call) (index : Nat) (id : String)
    (record : TaskRecord) : Prop where
  name : id = job.taskId index
  plans : job.Plans index record.task.id record.task.resource record.task.kind
  heard : record.state.isTerminal = true → HeardOf calls job index

/-- What is known of a job after the calls. -/
structure Tracked (job : Job) (hub : Hub) (calls : List Call) : Prop where
  /-- The hub is in order. -/
  orderly : hub.Orderly
  /-- The plan is stored as it was, and every task was heard of once the job is finished. -/
  stored : ∃ last, hub.ledger.job? job.id = .ok (some last) ∧ last.tasks = job.tasks ∧
    (last.state = .finished → ∀ index < job.tasks.length, HeardOf calls job index)
  accounted : ∀ id record, hub.accountant.task? job.id id = some record →
    ∃ index, Placed job calls index id record
  /-- An execution is on record only for a task that was heard of. -/
  recorded : ∀ index planned execution, job.tasks[index]? = some planned →
    hub.ledger.execution? planned.resource job.id planned.kind = .ok (some execution) →
    HeardOf calls job index

/-- More calls are heard of. -/
theorem Tracked.mono {others : List Call} (tracked : Tracked job hub calls)
    (more : calls ⊆ others) : Tracked job hub others where
  orderly := tracked.orderly
  stored := by
    obtain ⟨last, found, plan, finished⟩ := tracked.stored
    exact ⟨last, found, plan, fun ended index inside => (finished ended index inside).mono more⟩
  accounted := by
    intro id record found
    obtain ⟨index, placed⟩ := tracked.accounted id record found
    exact ⟨index, placed.name, placed.plans, fun ended => (placed.heard ended).mono more⟩
  recorded := fun index planned execution there found =>
    (tracked.recorded index planned execution there found).mono more

/-- A step that leaves the job and its executions alone and accounts nothing new for it. -/
theorem Tracked.untouched (tracked : Tracked job hub calls) (orderly : after.Orderly)
    (jobs : after.ledger.job? job.id = hub.ledger.job? job.id)
    (executions : after.ledger.executions = hub.ledger.executions)
    (tasks : ∀ id record, after.accountant.task? job.id id = some record →
      hub.accountant.task? job.id id = some record) : Tracked job after calls where
  orderly := orderly
  stored := by
    rw [jobs]
    exact tracked.stored
  accounted := fun id record found => tracked.accounted id record (tasks id record found)
  recorded := by
    intro index planned execution there found
    rw [execution?_of_executions_eq executions] at found
    exact tracked.recorded index planned execution there found

/-! ## Handing out -/

/-- What is handed out is as planned. -/
theorem Tracked.handed {names : List String} (tracked : Tracked job hub calls)
    (step : Handed hub after job.id names)
    (tasks : ∀ id record, after.accountant.task? job.id id = some record →
      hub.accountant.task? job.id id = some record ∨
        ∃ index, Placed job calls index id record) : Tracked job after calls where
  orderly := step.touched.orderly
  stored := by
    obtain ⟨last, found, plan, finished⟩ := tracked.stored
    obtain ⟨next, found, goes⟩ := step.job found
    exact ⟨next, found, goes.tasks.trans plan, fun ended => finished (goes.finished.1 ended)⟩
  accounted := by
    intro id record found
    rcases tasks id record found with before | placed
    · exact tracked.accounted id record before
    · exact placed
  recorded := by
    intro index planned execution there found
    rw [execution?_of_executions_eq step.steady.executions] at found
    exact tracked.recorded index planned execution there found

/-- A dispatch accounts nothing but its task, which is pending then. -/
theorem task?_dispatch (orderly : hub.Orderly) {id other : String} {task : Task}
    {record : TaskRecord}
    (found : (hub.dispatch id task now).1.accountant.task? id other = some record) :
    hub.accountant.task? id other = some record ∨
      other = task.id ∧ record.task = task ∧ record.state = .pending := by
  have ends := dispatching orderly.sound orderly.filed id task now
  generalize (hub.dispatch id task now).1 = after at ends found
  generalize (hub.dispatch id task now).2 = answer at ends
  cases ends with
  | sent _ _ _ _ _ rewritten =>
      rw [rewritten.task?, if_pos rfl, entered_get?] at found
      split at found
      · next same =>
        cases found
        exact .inr ⟨same, rfl, rfl⟩
      · exact .inl found
  | undelivered _ _ _ _ _ rewritten same =>
      rw [rewritten.task?, if_pos rfl, same] at found
      exact .inl found
  | unknown => exact .inl found
  | held => exact .inl found
  | assigned => exact .inl found
  | noNodes => exact .inl found
  | retired => exact .inl found

/-- A planned task is handed out. -/
theorem Tracked.dispatch (tracked : Tracked job hub calls) {index : Nat} {task : Task}
    (plans : job.Plans index task.id task.resource task.kind) (now : Instant) :
    Tracked job (hub.dispatch job.id task now).1 calls := by
  apply tracked.handed (handed_dispatch tracked.orderly job.id task now)
  intro id record found
  rcases task?_dispatch tracked.orderly found with before | ⟨rfl, rfl, pending⟩
  · exact .inl before
  · refine .inr ⟨index, plans.1, plans, fun ended => ?_⟩
    rw [pending] at ended
    cases ended

theorem Tracked.dispatchTasks (named : last.id = job.id) (plan : last.tasks = job.tasks)
    (now : Instant) (indices : List Nat) (sent : Nat) (hub : Hub)
    (tracked : Tracked job hub calls) :
    Tracked job (dispatchTasks last job.id now indices sent hub).1 calls := by
  induction indices generalizing sent hub with
  | nil => exact tracked
  | cons index rest ih =>
      rw [Hub.dispatchTasks]
      cases built : hub.buildTask last index with
      | error error => exact tracked
      | ok task =>
          obtain ⟨planned, resource, headers, there, _, _, made⟩ := buildTask_eq_ok_iff.1 built
          have plans : job.Plans index task.id task.resource task.kind := by
            subst made
            refine ⟨?_, planned, plan ▸ there, rfl, rfl⟩
            rw [Job.taskId, Job.taskId, named]
          have next := tracked.dispatch plans now
          dsimp only
          generalize hub.dispatch job.id task now = result at next ⊢
          obtain ⟨after, answer⟩ := result
          cases answer with
          | error error => exact next
          | ok dispatched =>
              cases dispatched with
              | sent => exact ih _ after next
              | alreadyAssigned => exact ih _ after next
              | held => exact next

theorem Tracked.dispatchJob (tracked : Tracked job hub calls) (now : Instant) :
    Tracked job (hub.dispatchJob job.id now).1 calls := by
  obtain ⟨last, found, plan, _⟩ := tracked.stored
  rw [Hub.dispatchJob, findJob_eq_ok_iff.2 found]
  exact Tracked.dispatchTasks (tracked.orderly.filed found) plan now _ 0 hub tracked

/-- A call that hands out nothing for the job. -/
theorem Tracked.idle (tracked : Tracked job hub calls) (step : Handed hub after job.id []) :
    Tracked job after calls :=
  tracked.handed step fun id _ found =>
    .inl ((step.others id (List.not_mem_nil)).symm.trans found)

theorem Tracked.startJob (tracked : Tracked job hub calls) (now : Instant) :
    Tracked job (hub.startJob job.id now).1 calls := by
  have moves : Handed hub (hub.moveJob job.id [.ready, .running, .pause] .resume now).1 job.id [] :=
    handed_moveJob tracked.orderly job.id (by decide) (by decide) now
  rw [Hub.startJob]
  generalize hub.moveJob job.id [.ready, .running, .pause] .resume now = result at moves ⊢
  obtain ⟨after, answer⟩ := result
  have next := tracked.idle moves
  cases answer with
  | error error => exact next
  | ok stored =>
      dsimp only
      split
      · exact next
      · exact next.dispatchJob now

/-! ## Reports and second looks -/

/-- The end of a task of the job is noted, provided that the task was heard of. -/
theorem Tracked.noted {accountant : Accountant} {metrics : Metrics} {account written : JobAccount}
    {task : String} {state : TaskState} (tracked : Tracked job hub calls)
    (kept : hub.accountant.account? job.id = some account)
    (rewritten : Rewritten hub.accountant accountant job.id written)
    (noted : Noted account written task state)
    (heard : ∀ index, task = job.taskId index → HeardOf calls job index) :
    Tracked job { hub with accountant := accountant, metrics := metrics } calls where
  orderly := ⟨rewritten.sound, tracked.orderly.filed, rewritten.holder.trans tracked.orderly.free⟩
  stored := tracked.stored
  accounted := by
    intro id record found
    rw [rewritten.task?, if_pos rfl, noted.tasks] at found
    split at found
    · next same =>
      obtain ⟨before, stands, rfl⟩ := Option.map_eq_some_iff.1 found
      obtain ⟨index, placed⟩ := tracked.accounted id before ((task?_of_kept kept id).trans stands)
      refine ⟨index, placed.name, ?_, fun _ => heard index (same ▸ placed.name)⟩
      rw [TaskRecord.ended_task]
      exact placed.plans
    · exact tracked.accounted id record ((task?_of_kept kept id).trans found)
  recorded := tracked.recorded

theorem Tracked.applyState (tracked : Tracked job hub calls) {task : String}
    (heard : ∀ index, task = job.taskId index → HeardOf calls job index) (state : TaskState) :
    Tracked job (hub.applyState job.id task state).1 calls := by
  rw [Hub.applyState]
  cases kept : hub.accountant.account? job.id with
  | none =>
      rw [apply_of_gone tracked.orderly.sound kept]
      exact tracked
  | some account =>
      obtain ⟨written, rewritten, noted⟩ := rewritten_apply tracked.orderly.sound kept task state
      exact tracked.noted kept rewritten noted heard

/-- Only planned tasks are accounted. -/
theorem Tracked.declared (tracked : Tracked job hub calls) {account : JobAccount}
    (kept : hub.accountant.account? job.id = some account) (task : String)
    (present : account.tasks.contains task = true) : task ∈ job.taskIds := by
  obtain ⟨record, stands⟩ := Option.isSome_iff_exists.1 present
  obtain ⟨index, placed⟩ := tracked.accounted task record ((task?_of_kept kept task).trans stands)
  obtain ⟨_, planned, there, _⟩ := placed.plans
  exact Job.mem_taskIds.2 ⟨index, (List.getElem?_eq_some_iff.1 there).1, placed.name⟩

/-- The tasks of a complete account that has ended were all heard of. -/
theorem Tracked.heard (tracked : Tracked job hub calls) {account : JobAccount}
    (kept : hub.accountant.account? job.id = some account) (ended : account.allTerminal = true)
    (enough : job.tasks.length ≤ account.tasks.size) :
    ∀ index < job.tasks.length, HeardOf calls job index := by
  have full := (JobAccount.planned_le_size_iff (tracked.declared kept)).1 enough
  intro index inside
  obtain ⟨record, stands⟩ :=
    Option.isSome_iff_exists.1 (full _ (Job.mem_taskIds.2 ⟨index, inside, rfl⟩))
  obtain ⟨other, placed⟩ := tracked.accounted _ record ((task?_of_kept kept _).trans stands)
  obtain rfl : index = other := Job.taskId_inj.1 placed.name
  exact placed.heard (JobAccount.allTerminal_iff.1 ended _ record stands)

theorem Tracked.finishIfComplete (tracked : Tracked job hub calls) (now : Instant) :
    Tracked job (hub.finishIfComplete job.id now).1 calls := by
  have ends := finishing tracked.orderly.sound tracked.orderly.filed job.id now
  generalize (hub.finishIfComplete job.id now).1 = after at ends ⊢
  generalize (hub.finishIfComplete job.id now).2 = answer at ends
  cases ends with
  | ignored => exact tracked
  | outstanding => exact tracked
  | partly => exact tracked
  | refused => exact tracked
  | finished kept ended found enough restated closed =>
      obtain ⟨last, stored, plan, _⟩ := tracked.stored
      rw [stored] at found
      cases found
      exact
        { orderly := ⟨closed.sound, restated.filed, closed.holder.trans tracked.orderly.free⟩
          stored := ⟨_, restated.is, plan, fun _ => tracked.heard kept ended (plan ▸ enough)⟩
          accounted := by
            intro id record found
            rw [closed.task?, if_pos rfl] at found
            cases found
          recorded := by
            intro index planned execution there found
            rw [execution?_of_executions_eq restated.executions] at found
            exact tracked.recorded index planned execution there found }

/-- A report on a task of the job is heard. -/
theorem Tracked.report {completion : Completion} (tracked : Tracked job hub calls)
    (own : completion.job = job.id) (mem : .report completion ∈ calls) (now : Instant) :
    Tracked job (hub.onCompletion completion now).1 calls := by
  cases kept : hub.accountant.account? job.id with
  | none =>
      rw [onCompletion_of_gone tracked.orderly.free (own ▸ kept)]
      exact tracked.untouched (settled_count tracked.orderly job.id rfl).touched.orderly rfl rfl
        fun _ _ found => found
  | some account =>
      obtain ⟨accountant, metrics, written, same, rewritten, noted, _⟩ :=
        onCompletion_of_kept tracked.orderly (own ▸ kept) now
      rw [own] at same rewritten
      rw [same]
      have next : Tracked job { hub with accountant := accountant, metrics := metrics } calls :=
        tracked.noted kept rewritten noted fun index task => .reported mem own task
      exact next.finishIfComplete now

/-- An execution that is recovered is one of a task that was heard of. -/
theorem Tracked.recover (records : List TaskRecord) (hub : Hub) (tracked : Tracked job hub calls)
    (planned : ∀ record ∈ records, ∃ index,
      job.Plans index record.task.id record.task.resource record.task.kind) :
    Tracked job (recover job.id records hub).1 calls := by
  induction records generalizing hub with
  | nil => exact tracked
  | cons record rest ih =>
      have others := fun other mem => planned other (List.mem_cons_of_mem record mem)
      rw [Hub.recover]
      split
      · exact tracked
      · exact ih hub tracked others
      · next execution found =>
        obtain ⟨index, name, task, there, resource, kind⟩ := planned record List.mem_cons_self
        rw [← resource, ← kind] at found
        have heard := tracked.recorded index task execution there found
        refine ih _ (tracked.applyState ?_ _) others
        intro other same
        obtain rfl : index = other := Job.taskId_inj.1 (name.symm.trans same)
        exact heard

theorem Tracked.reconcile (tracked : Tracked job hub calls) (now : Instant) :
    Tracked job (hub.reconcile job.id now).1 calls := by
  rw [Hub.reconcile, awaitAccount_of_free tracked.orderly.free]
  cases kept : hub.accountant.account? job.id with
  | none => exact tracked
  | some account =>
      have planned (record : TaskRecord) (mem : record ∈ account.outstanding) : ∃ index,
          job.Plans index record.task.id record.task.resource record.task.kind := by
        obtain ⟨id, stands⟩ := SortedMap.mem_values_iff.1 (List.mem_of_mem_filter mem)
        obtain ⟨index, placed⟩ := tracked.accounted id record ((task?_of_kept kept id).trans stands)
        exact ⟨index, placed.plans⟩
      have next := Tracked.recover account.outstanding hub tracked planned
      dsimp only
      generalize Hub.recover job.id account.outstanding hub = result at next ⊢
      obtain ⟨middle, answer⟩ := result
      cases answer with
      | error error => exact next
      | ok _ => exact next.finishIfComplete now

/-- What is recorded for the job is heard of. -/
theorem Tracked.record {completion : Completion} (tracked : Tracked job hub calls)
    (mem : .record completion ∈ calls) (path : (Call.record completion).OnRecord job)
    (now : Instant) : Tracked job (hub.record completion now).1 calls := by
  have ledger := hub.ledger_record completion now
  have step := idle_record hub completion now
  obtain ⟨jobs, tasks⟩ := step.apart job.id (by simp)
  exact
    { orderly := step.orderly tracked.orderly
      stored := by
        rw [jobs]
        exact tracked.stored
      accounted := by
        intro id record found
        rw [tasks] at found
        exact tracked.accounted id record found
      recorded := by
        intro index planned execution there found
        by_cases same : executionKey planned.resource job.id planned.kind =
            executionKey completion.resource completion.job completion.kind
        · rcases path with ⟨own, _⟩ | apart
          · rw [own, executionKey_inj] at same
            exact .recorded mem own there same.1.symm same.2.symm
          · exact absurd same (apart planned (List.mem_of_getElem? there))
        · rw [ledger, execution?_record same] at found
          exact tracked.recorded index planned execution there found }

/-! ## What a second look achieves -/

/-- Tasks that have an execution on record end, be it one of another task. -/
theorem recover_of_recorded (id : String) (records : List TaskRecord) (hub : Hub)
    (account : JobAccount) (orderly : hub.Orderly)
    (kept : hub.accountant.account? id = some account)
    (recorded : ∀ record ∈ records, ∃ execution,
      hub.ledger.execution? record.task.resource id record.task.kind = .ok (some execution) ∧
        execution.measurements.taskState.isTerminal = true) :
    ∃ accountant written, recover id records hub = ({ hub with accountant := accountant }, .ok ()) ∧
      Rewritten hub.accountant accountant id written ∧
      (∀ other, written.tasks.contains other = account.tasks.contains other) ∧
      ∀ other record, written.tasks.get? other = some record →
        record.state.isTerminal = true ∨
          account.tasks.get? other = some record ∧ ∀ entry ∈ records, entry.task.id ≠ other := by
  induction records generalizing hub account with
  | nil =>
      exact ⟨hub.accountant, account, rfl, .refl orderly.sound kept, fun _ => rfl,
        fun _ _ found => .inr ⟨found, List.forall_mem_nil _⟩⟩
  | cons head rest ih =>
      obtain ⟨execution, found, terminal⟩ := recorded head List.mem_cons_self
      obtain ⟨middle, change, noted⟩ := rewritten_apply orderly.sound kept head.task.id
        execution.measurements.taskState
      have next : Orderly
          (hub.applyState id head.task.id execution.measurements.taskState).1 :=
        (settled_applyState orderly id head.task.id _).touched.orderly
      obtain ⟨accountant, written, same, change', keys, ends⟩ := ih _ middle next change.is
        fun record mem => recorded record (List.mem_cons_of_mem _ mem)
      refine ⟨accountant, written, ?_, change.trans change',
        fun other => (keys other).trans (noted.keys other), ?_⟩
      · rw [recover, found]
        exact same
      · intro other record stands
        rcases ends other record stands with ended | ⟨before, apart⟩
        · exact .inl ended
        · rw [noted.tasks] at before
          split at before
          · obtain ⟨former, _, rfl⟩ := Option.map_eq_some_iff.1 before
            exact .inl (TaskRecord.ended_isTerminal terminal)
          · next differ =>
            exact .inr ⟨before, List.forall_mem_cons.2 ⟨Ne.symm differ, apart⟩⟩

/-- A second look finishes a job that was handed out whole once each of its outstanding tasks has an
execution on record.  One execution stands in for all tasks of its kind on its resource. -/
theorem reconcile_of_recorded {id : String} {account : JobAccount} (orderly : hub.Orderly)
    (found : hub.ledger.job? id = .ok (some job))
    (kept : hub.accountant.account? id = some account)
    (enough : job.tasks.length ≤ account.tasks.size)
    (named : ∀ task record, account.tasks.get? task = some record → record.task.id = task)
    (recorded : ∀ record ∈ account.outstanding, ∃ execution,
      hub.ledger.execution? record.task.resource id record.task.kind = .ok (some execution) ∧
        execution.measurements.taskState.isTerminal = true) (now : Instant) :
    (hub.reconcile id now).2 = .ok .finished ∧
      (hub.reconcile id now).1.ledger.job? id = .ok (some (job.withState .finished now)) := by
  obtain ⟨accountant, written, same, change, keys, ends⟩ :=
    recover_of_recorded id account.outstanding hub account orderly kept recorded
  have ended : written.allTerminal = true := by
    refine JobAccount.allTerminal_iff.2 fun task record stands => ?_
    rcases ends task record stands with ended | ⟨before, apart⟩
    · exact ended
    · by_contra running
      have mem : record ∈ account.outstanding :=
        List.mem_filter.2 ⟨SortedMap.mem_values_iff.2 ⟨task, before⟩, by simpa using running⟩
      exact apart record mem (named task record before)
  have size : written.tasks.size = account.tasks.size := SortedMap.size_eq_of_contains keys
  rw [Hub.reconcile, awaitAccount_of_free orderly.free, kept]
  dsimp only
  rw [same]
  dsimp only
  have middle : Orderly { hub with accountant := accountant } :=
    ⟨change.sound, orderly.filed, change.holder.trans orderly.free⟩
  have answers := finishing middle.sound middle.filed id now
  generalize (Hub.finishIfComplete _ id now).1 = after at answers ⊢
  generalize (Hub.finishIfComplete _ id now).2 = answer at answers ⊢
  cases answers with
  | ignored gone =>
      rw [change.is] at gone
      cases gone
  | outstanding stands running =>
      rw [change.is] at stands
      cases stands
      rw [ended] at running
      cases running
  | partly stands _ read few =>
      rw [change.is] at stands
      rw [found] at read
      cases stands
      cases read
      omega
  | refused _ _ missing => exact absurd found (missing job)
  | finished _ _ read _ restated _ =>
      rw [found] at read
      cases read
      exact ⟨rfl, restated.is⟩

/-- A second look finishes a job that was handed out whole once there is an execution on record for
the kind and the resource of each planned task. -/
theorem Tracked.reconcile_finishes (tracked : Tracked job hub calls) (planned : job.tasks ≠ [])
    (accounted : ∀ index < job.tasks.length,
      hub.accountant.hasTask job.id (job.taskId index) = true)
    (recorded : ∀ planned ∈ job.tasks, ∃ execution,
      hub.ledger.execution? planned.resource job.id planned.kind = .ok (some execution) ∧
        execution.measurements.taskState.isTerminal = true) (now : Instant) :
    (hub.reconcile job.id now).2 = .ok .finished ∧
      ∃ last, (hub.reconcile job.id now).1.ledger.job? job.id = .ok (some last) ∧
        last.state = .finished := by
  obtain ⟨last, stored, plan, _⟩ := tracked.stored
  obtain ⟨first, stands⟩ :=
    hasTask_eq_true_iff.1 (accounted 0 (List.length_pos_iff.2 planned))
  obtain ⟨account, kept, _⟩ := Option.bind_eq_some_iff.1 stands
  have enough : last.tasks.length ≤ account.tasks.size := by
    rw [plan]
    refine (JobAccount.planned_le_size_iff (tracked.declared kept)).2 fun task mem => ?_
    obtain ⟨index, inside, rfl⟩ := Job.mem_taskIds.1 mem
    rw [SortedMap.contains, ← task?_of_kept kept]
    exact accounted index inside
  have placed {task : String} {record : TaskRecord}
      (found : account.tasks.get? task = some record) :
      ∃ index, Placed job calls index task record :=
    tracked.accounted task record ((task?_of_kept kept task).trans found)
  have named (task : String) (record : TaskRecord)
      (found : account.tasks.get? task = some record) : record.task.id = task := by
    obtain ⟨index, placed⟩ := placed found
    rw [placed.plans.1, placed.name]
  have known (record : TaskRecord) (mem : record ∈ account.outstanding) : ∃ execution,
      hub.ledger.execution? record.task.resource job.id record.task.kind = .ok (some execution) ∧
        execution.measurements.taskState.isTerminal = true := by
    obtain ⟨task, found⟩ := SortedMap.mem_values_iff.1 (List.mem_of_mem_filter mem)
    obtain ⟨index, placed⟩ := placed found
    obtain ⟨_, planned, there, resource, kind⟩ := placed.plans
    rw [← resource, ← kind]
    exact recorded planned (List.mem_of_getElem? there)
  obtain ⟨answer, finished⟩ :=
    reconcile_of_recorded tracked.orderly stored kept enough named known now
  exact ⟨answer, _, finished, rfl⟩

/-! ## Every run -/

/-- Only a recording writes executions. -/
theorem executions_perform (orderly : hub.Orderly) (call : Call) (now : Instant)
    (other : ∀ completion, call ≠ .record completion) :
    (call.perform now hub).1.ledger.executions = hub.ledger.executions := by
  cases call with
  | dispatch job task => exact (handed_dispatch orderly job task now).steady.executions
  | dispatchJob job => exact (handed_dispatchJob orderly job now).steady.executions
  | startJob job => exact (handed_startJob orderly job now).steady.executions
  | stopJob job => exact (handed_stopJob orderly job now).steady.executions
  | report completion => exact executions_onCompletion orderly completion now
  | reconcile job => exact executions_reconcile orderly job now
  | record completion => exact absurd rfl (other completion)
  | removeJob job => rfl
  | takeTask node =>
      rw [Call.perform, takeTask]
      split <;> rfl
  | closeNode node =>
      rw [Call.perform, closeNode]
      split <;> rfl

/-- Any call on the way leaves the job tracked. -/
theorem Tracked.perform (tracked : Tracked job hub calls) (call : Call)
    (path : call.OnRecord job) (now : Instant) :
    Tracked job (call.perform now hub).1 (calls ++ [call]) := by
  have orderly := tracked.orderly
  have tracked := tracked.mono (List.subset_append_left calls [call])
  have mem : call ∈ calls ++ [call] := by simp
  by_cases own : call.job? = some job.id
  · cases call with
    | dispatch id task =>
        cases own
        obtain ⟨index, plans⟩ := path rfl
        exact tracked.dispatch plans now
    | dispatchJob id =>
        cases own
        exact tracked.dispatchJob now
    | startJob id =>
        cases own
        exact tracked.startJob now
    | stopJob id =>
        cases own
        exact tracked.idle (handed_stopJob orderly job.id now)
    | report completion => exact tracked.report (Option.some.inj own) mem now
    | reconcile id =>
        cases own
        exact tracked.reconcile now
    | removeJob id =>
        cases own
        refine tracked.untouched (settled_removeJob orderly job.id).touched.orderly rfl rfl ?_
        intro id record found
        rw [Call.perform, (closed_removeJob orderly.sound job.id).task?, if_pos rfl] at found
        cases found
    | record completion => cases own
    | takeTask node => cases own
    | closeNode node => cases own
  · have step := performed orderly call now
    obtain ⟨jobs, tasks⟩ := step.apart job.id own
    by_cases recording : ∃ completion, call = .record completion
    · obtain ⟨completion, rfl⟩ := recording
      exact tracked.record mem path now
    · have executions := executions_perform orderly call now fun completion same =>
        recording ⟨completion, same⟩
      exact tracked.untouched (step.orderly orderly) jobs executions fun id record found =>
        (tasks id).symm.trans found

theorem Tracked.run (calls : List (Call × Instant)) (hub : Hub) (earlier : List Call)
    (tracked : Tracked job hub earlier) (path : ∀ step ∈ calls, step.1.OnRecord job) :
    Tracked job (run calls hub).1 (earlier ++ calls.map Prod.fst) := by
  induction calls generalizing hub earlier with
  | nil =>
      rw [List.map_nil, List.append_nil]
      exact tracked
  | cons step rest ih =>
      have next := tracked.perform step.1 (path step List.mem_cons_self) step.2
      rw [Hub.run, List.map_cons, List.append_cons]
      exact ih _ _ next fun other mem => path other (List.mem_cons_of_mem _ mem)

/-- A stored job of which nothing was handed out or recorded yet. -/
theorem tracked_nil (fresh : hub.accountant = .empty) (filed : hub.ledger.Filed)
    (stored : hub.ledger.job? job.id = .ok (some job)) (unfinished : job.state ≠ .finished)
    (unrecorded : ∀ planned ∈ job.tasks,
      hub.ledger.execution? planned.resource job.id planned.kind = .ok none) :
    Tracked job hub [] where
  orderly := (journaled_nil fresh filed).orderly
  stored := ⟨job, stored, rfl, fun ended => absurd ended unfinished⟩
  accounted := by
    rw [fresh]
    rintro id record ⟨⟩
  recorded := by
    intro index planned execution there found
    rw [unrecorded planned (List.mem_of_getElem? there)] at found
    cases found

/-- What a run owes for a job: it is not finished while a task of it was not heard of. -/
structure FinishesHeard (job : Job) (hub : Hub) (calls : List Call) : Prop where
  /-- Every task of a finished job was heard of. -/
  heard : ∀ last, hub.ledger.job? job.id = .ok (some last) → last.state = .finished →
    ∀ index < job.tasks.length, HeardOf calls job index
  /-- If the job plans no kind twice on a resource, a report of each task's own came in. -/
  own : (job.tasks.map fun planned => (planned.resource, planned.kind)).Nodup →
    ∀ last, hub.ledger.job? job.id = .ok (some last) → last.state = .finished →
    ∀ index < job.tasks.length, ∃ completion,
      (.report completion ∈ calls ∨ .record completion ∈ calls) ∧
      completion.job = job.id ∧ completion.task = job.taskId index

/-- From a hub without accounts no run of calls on the way finishes a job before every task of it
was heard of, whatever is recorded in place of reports and looked at again. -/
theorem finishesHeard_run (job : Job) (hub : Hub) (fresh : hub.accountant = .empty)
    (filed : hub.ledger.Filed) (stored : hub.ledger.job? job.id = .ok (some job))
    (unfinished : job.state ≠ .finished)
    (unrecorded : ∀ planned ∈ job.tasks,
      hub.ledger.execution? planned.resource job.id planned.kind = .ok none)
    (calls : List (Call × Instant)) (path : ∀ step ∈ calls, step.1.OnRecord job) :
    FinishesHeard job (run calls hub).1 (calls.map Prod.fst) := by
  have start := tracked_nil fresh filed stored unfinished unrecorded
  have tracked : Tracked job (run calls hub).1 (calls.map Prod.fst) := start.run calls hub [] path
  have heard (last : Job) (found : (run calls hub).1.ledger.job? job.id = .ok (some last))
      (ended : last.state = .finished) :
      ∀ index < job.tasks.length, HeardOf (calls.map Prod.fst) job index := by
    obtain ⟨other, found', _, finished⟩ := tracked.stored
    rw [found] at found'
    cases found'
    exact finished ended
  refine ⟨heard, ?_⟩
  intro distinct last found ended index inside
  apply (heard last found ended index inside).own distinct
  intro call mem
  obtain ⟨step, inside, rfl⟩ := List.mem_map.1 mem
  exact path step inside

/-- The report on one task is only recorded, the one on the other comes in, and the job is looked at
again. -/
def lostCalls : List (Call × Instant) :=
  [(.startJob "7", .epoch), (.record (linkChecked 0), .epoch), (.report (linkChecked 1), .epoch),
    (.reconcile "7", .epoch)]

theorem finishesHeard_lostCalls :
    pairHub.accountant = .empty ∧ pairHub.ledger.Filed ∧
      pairHub.ledger.job? twoLinks.id = .ok (some twoLinks) ∧ twoLinks.state ≠ .finished ∧
      (∀ planned ∈ twoLinks.tasks,
        pairHub.ledger.execution? planned.resource twoLinks.id planned.kind = .ok none) ∧
      (∀ step ∈ lostCalls, step.1.OnRecord twoLinks) ∧
      FinishesHeard twoLinks (run lostCalls pairHub).1 (lostCalls.map Prod.fst) := by
  have unfinished : twoLinks.state ≠ .finished := by decide
  have unrecorded (planned : PlannedTask) (_ : planned ∈ twoLinks.tasks) :
      pairHub.ledger.execution? planned.resource twoLinks.id planned.kind = .ok none :=
    execution?_of_bare rfl _ _ _
  have owns : twoLinks.Owns (linkChecked 0) :=
    ⟨rfl, 0, rfl, ⟨.checkLink, "first", []⟩, rfl, rfl, rfl⟩
  have path : ∀ step ∈ lostCalls, step.1.OnRecord twoLinks := by
    simp [lostCalls, Call.OnRecord, owns]
  exact ⟨rfl, pairHub_filed, pairHub_stored, unfinished, unrecorded, path,
    finishesHeard_run twoLinks pairHub rfl pairHub_filed pairHub_stored unfinished unrecorded
      lostCalls path⟩

/-! ## A kind planned twice on a resource -/

/-- A job that checks one link twice. -/
def twinLinks : Job :=
  { twoLinks with tasks := [⟨.checkLink, "first", []⟩, ⟨.checkLink, "first", []⟩] }

/-- A hub with two nodes that stores the job. -/
def twinHub : Hub := { Hub.start 2 .unlimited .zero with ledger := Ledger.empty.putJob twinLinks }

/-- The report on the first task is recorded, and the job is looked at again. -/
def twinCalls : List (Call × Instant) :=
  [(.startJob twinLinks.id, .epoch), (.record (linkChecked 0), .epoch),
    (.reconcile twinLinks.id, .epoch)]

theorem twinLinks_tasks {index : Nat} {planned : PlannedTask}
    (there : twinLinks.tasks[index]? = some planned) : planned = ⟨.checkLink, "first", []⟩ := by
  have mem : planned ∈ twinLinks.tasks := List.mem_of_getElem? there
  simpa [twinLinks] using mem

theorem twinHub_filed : twinHub.ledger.Filed :=
  filed_empty.putJob Limits.whole_unlimited

theorem twinHub_stored : twinHub.ledger.job? twinLinks.id = .ok (some twinLinks) :=
  (job?_putJob Limits.whole_unlimited twinLinks.id).trans (if_pos rfl)

theorem twinCalls_onRecord : ∀ step ∈ twinCalls, step.1.OnRecord twinLinks := by
  have owns : twinLinks.Owns (linkChecked 0) :=
    ⟨rfl, 0, rfl, ⟨.checkLink, "first", []⟩, rfl, rfl, rfl⟩
  simp [twinCalls, Call.OnRecord, owns]

theorem twinHub_tracked : Tracked twinLinks twinHub [] :=
  tracked_nil rfl twinHub_filed twinHub_stored (by decide) fun _ _ => execution?_of_bare rfl _ _ _

/-- The start hands out both tasks. -/
theorem twinHub_started {index : Nat} (inside : index < twinLinks.tasks.length) :
    (twinHub.startJob twinLinks.id .epoch).1.accountant.hasTask twinLinks.id
      (twinLinks.taskId index) = true := by
  have orderly := twinHub_tracked.orderly
  have builds (index : Nat) (inside : index < twinLinks.tasks.length) :
      ∃ task, twinHub.buildTask twinLinks index = .ok task := by
    have there := List.getElem?_eq_getElem inside
    rw [twinLinks_tasks there] at there
    exact ⟨_, buildTask_eq_ok_iff.2 ⟨_, none, ∅, there, resource?_of_bare rfl _, rfl, rfl⟩⟩
  obtain ⟨count, done⟩ := startJob_of_staffed orderly ⟨by decide, by decide⟩ twinHub_stored
    (by decide) rfl builds .epoch
  exact (handedOut_startJob orderly twinHub_stored done).accounted index inside

/-- The recorded execution is found for either task. -/
theorem twinHub_recorded : ∃ execution,
    ((twinHub.startJob twinLinks.id .epoch).1.record (linkChecked 0) .epoch).1.ledger.execution?
        "first" twinLinks.id .checkLink = .ok (some execution) ∧
      execution.measurements.taskState.isTerminal = true := by
  have tracked := twinHub_tracked.startJob .epoch
  have steady := (handed_startJob twinHub_tracked.orderly twinLinks.id .epoch).steady
  generalize (twinHub.startJob twinLinks.id .epoch).1 = hub at tracked steady ⊢
  obtain ⟨last, found, _⟩ := tracked.stored
  let report : Report := ⟨linkChecked 0, last.owner, last.role, true⟩
  have none := execution?_of_bare steady.executions report.completion.resource
    report.completion.job report.completion.kind
  have sees : hub.ledger.Sees report :=
    ⟨⟨last, found, rfl, rfl⟩, ⟨.none, resource?_of_bare steady.resources _, rfl⟩, .none, none⟩
  obtain ⟨execution, known, origin⟩ :=
    execution?_record_of_seen sees (latest?_of_bare steady.latest _) .epoch
  rw [none] at origin
  refine ⟨execution, ?_, ?_⟩
  · rw [ledger_record]
    exact known
  · rcases origin with rfl | impossible
    · rfl
    · cases impossible

/-- The second look finishes the job. -/
theorem twinHub_finished : ∃ last,
    (run twinCalls twinHub).1.ledger.job? twinLinks.id = .ok (some last) ∧
      last.state = .finished := by
  -- stated for any hub, so that no state of this one is computed
  have calls (hub : Hub) : (run twinCalls hub).1 =
      (((hub.startJob twinLinks.id .epoch).1.record (linkChecked 0) .epoch).1.reconcile
        twinLinks.id .epoch).1 := rfl
  rw [calls]
  have path : (Call.record (linkChecked 0)).OnRecord twinLinks :=
    twinCalls_onRecord (_, .epoch) (by simp [twinCalls])
  have mem : Call.record (linkChecked 0) ∈ [Call.record (linkChecked 0)] := by simp
  have start : Tracked twinLinks (twinHub.startJob twinLinks.id .epoch).1
      [.record (linkChecked 0)] :=
    (twinHub_tracked.startJob .epoch).mono (List.nil_subset _)
  have apart := (idle_record (twinHub.startJob twinLinks.id .epoch).1 (linkChecked 0) .epoch).apart
    twinLinks.id (by simp)
  apply ((start.record mem path .epoch).reconcile_finishes (by decide) ?_ ?_ .epoch).2
  · intro index inside
    rw [hasTask, apart.2]
    exact twinHub_started inside
  · intro planned mem
    obtain ⟨index, there⟩ := List.getElem?_of_mem mem
    rw [twinLinks_tasks there]
    exact twinHub_recorded

/-- A job is finished although nothing was ever heard of its second task by name. -/
theorem finished_unheard :
    twinHub.accountant = .empty ∧ twinHub.ledger.Filed ∧
      twinHub.ledger.job? twinLinks.id = .ok (some twinLinks) ∧ twinLinks.state ≠ .finished ∧
      (∀ planned ∈ twinLinks.tasks,
        twinHub.ledger.execution? planned.resource twinLinks.id planned.kind = .ok none) ∧
      (∀ step ∈ twinCalls, step.1.OnRecord twinLinks) ∧
      (∃ last, (run twinCalls twinHub).1.ledger.job? twinLinks.id = .ok (some last) ∧
        last.state = .finished) ∧
      ∃ index < twinLinks.tasks.length, ¬ ∃ completion,
        (.report completion ∈ twinCalls.map Prod.fst ∨
          .record completion ∈ twinCalls.map Prod.fst) ∧
        completion.job = twinLinks.id ∧ completion.task = twinLinks.taskId index := by
  refine ⟨rfl, twinHub_filed, twinHub_stored, by decide, fun _ _ => execution?_of_bare rfl _ _ _,
    twinCalls_onRecord, twinHub_finished, 1, by decide, ?_⟩
  rintro ⟨completion, came, _, task⟩
  have first : completion = linkChecked 0 := by simpa [twinCalls] using came
  rw [first] at task
  exact absurd task (by decide)

end Hub

end MediaHarvest
