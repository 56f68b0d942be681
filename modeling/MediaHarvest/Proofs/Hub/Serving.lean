import MediaHarvest.Proofs.Hub.FinishedOnce
import MediaHarvest.Proofs.Hub.Health
import MediaHarvest.Proofs.Hub.Recovery
import MediaHarvest.Proofs.Hub.Tally

/-!
# A hub that serves several jobs

Jobs are added one by one, their tasks are handed out each once, and every task that was handed out
is reported on once.  `Serves` ties the journal of such a hub to its state, for all of its jobs at
the same time.  No dispatch is held or refused then, no report is ignored, and when there is a
report on every task, every job is finished.
-/

namespace MediaHarvest

open Ledger Accountant

/-! ## Tasks that were reported on -/

/-- The tasks that were reported on, each with its job. -/
def reportedTasks (journal : List Entry) : List (String × String) :=
  journal.flatMap fun
    | .reported job task _ => [(job, task)]
    | _ => []

@[simp]
theorem reportedTasks_append (first second : List Entry) :
    reportedTasks (first ++ second) = reportedTasks first ++ reportedTasks second :=
  List.flatMap_append

/-- What has ended was reported on. -/
theorem Ended.reported {journal : List Entry} {job task : String}
    (ended : Ended journal job task) : (job, task) ∈ reportedTasks journal := by
  rcases ended with ⟨answer, order⟩
  have mem : Entry.reported job task answer ∈ journal := order.subset (by simp)
  exact List.mem_flatMap.2 ⟨_, mem, List.mem_singleton_self _⟩

namespace Hub

variable {hub after : Hub} {job : Job} {jobs : List Job} {task : Task} {journal noted : List Entry}
  {completion : Completion} {now : Instant}

/-! ## Handing out a task that is new -/

/-- The tasks of a job can be built if the ledger can be read. -/
theorem buildTask_of_readable {index : Nat} (readable : hub.ledger.Readable)
    (inside : index < job.tasks.length) : ∃ task, hub.buildTask job index = .ok task := by
  have there := List.getElem?_eq_getElem inside
  rcases readable.resources job.tasks[index].resource with ⟨resource, about⟩
  have headers : ∃ headers, hub.previousHeaders job job.tasks[index] = .ok headers := by
    rw [previousHeaders]
    split
    · rcases readable.latest ⟨job.tasks[index].resource, job.tasks[index].kind, job.role⟩ with
        ⟨latest, found⟩
      rw [found]
      cases latest with
      | none => exact ⟨_, rfl⟩
      | some latest => exact ⟨_, rfl⟩
    · exact ⟨_, rfl⟩
  rcases headers with ⟨headers, previous⟩
  exact ⟨_, buildTask_eq_ok_iff.2 ⟨_, resource, headers, there, about, previous, rfl⟩⟩

/-- A task of a job was handed to a node. -/
structure Sent (hub after : Hub) (id : String) (task : Task) : Prop where
  handed : Handed hub after id [task.id]
  /-- The nodes go on taking tasks. -/
  staffed : Staffed after
  delivered : ∃ node, Delivered hub.nodes after.nodes task node
  metrics : after.metrics = hub.metrics.taskDispatched
  backlog : after.backlog = (hub.backlog.enqueue task).2
  stored : ∃ last, after.ledger.job? id = .ok (some last) ∧ last.state.acceptsDispatch = true

/-- Where there are nodes that take tasks, a task that is not accounted is handed out. -/
theorem sent_of_staffed {id : String} {stored : Job} (orderly : hub.Orderly)
    (staffed : Staffed hub) (found : hub.ledger.job? id = .ok (some stored))
    (accepts : stored.state.acceptsDispatch = true)
    (active : hub.accountant.retired.contains id = false)
    (missing : hub.accountant.hasTask id task.id = false) (now : Instant) :
    (∃ number node, (hub.dispatch id task now).2 = .ok (.sent number node)) ∧
      Sent hub (hub.dispatch id task now).1 id task := by
  rcases dispatch_of_staffed orderly staffed found accepts active task now with
    ⟨⟨dispatched, done⟩, next⟩
  have handed := handed_dispatch orderly id task now
  have ends := dispatching orderly.sound orderly.filed id task now
  rw [dispatchSent] at handed
  rw [done] at ends handed ⊢
  generalize (hub.dispatch id task now).1 = after at ends handed next ⊢
  cases ends with
  | held other closed =>
      rw [found] at other
      cases other
      rw [accepts] at closed
      cases closed
  | assigned _ _ present =>
      rw [missing] at present
      cases present
  | sent other accepts _ _ restated _ delivered =>
      constructor
      · exact ⟨_, _, rfl⟩
      · exact ⟨handed, next, ⟨_, delivered⟩, rfl, rfl, _, restated.is,
          Job.begun_acceptsDispatch accepts⟩

/-! ## One of the jobs -/

/-- What is known of a job that is served. -/
structure Served (job : Job) (hub : Hub) (journal : List Entry) : Prop where
  followed : job.tasks ≠ [] → Followed job hub journal
  /-- It is finished, or it has tasks and they can be handed out. -/
  stored : ∃ last, hub.ledger.job? job.id = .ok (some last) ∧ last.tasks = job.tasks ∧
    (last.state = .finished ∨ job.tasks ≠ [] ∧ last.state.acceptsDispatch = true)

/-- A step that may touch another job only. -/
theorem Served.foreign {subject : Option String} (served : Served job hub journal)
    (step : Performed hub after subject noted) (differ : subject ≠ some job.id) :
    Served job after (journal ++ noted) where
  followed := fun planned => (served.followed planned).foreign step differ
  stored := by
    rw [(step.apart job.id differ).1]
    exact served.stored

/-- One of its tasks is handed out. -/
theorem Served.sent (served : Served job hub journal) (step : Sent hub after job.id task)
    (planned : task.id ∈ job.taskIds) :
    Served job after (journal ++ [.sent job.id task.id]) where
  followed := by
    intro some
    apply (served.followed some).handed step.handed
    intro name mem
    exact List.mem_singleton.1 mem ▸ planned
  stored := by
    rcases served.stored with ⟨last, found, plan, _⟩
    rcases step.handed.job found with ⟨next, stays, goes⟩
    rcases step.stored with ⟨other, found, accepts⟩
    rw [stays] at found
    cases found
    have some : job.tasks ≠ [] := by
      rcases Job.mem_taskIds.1 planned with ⟨index, inside, _⟩
      exact List.ne_nil_of_length_pos (Nat.zero_lt_of_lt inside)
    exact ⟨next, stays, goes.tasks.trans plan, .inr ⟨some, accepts⟩⟩

/-- There is a report on one of its tasks. -/
theorem Served.report (served : Served job hub journal) (planned : job.tasks ≠ [])
    (own : completion.job = job.id) (now : Instant) :
    ∃ status, (hub.onCompletion completion now).2 = .ok status ∧
      Served job (hub.onCompletion completion now).1
        (journal ++ [.reported job.id completion.task (.ok status)]) := by
  have followed := served.followed planned
  have judged := judged_onCompletion followed.agree.orderly completion now
  rcases followed.report planned own now with ⟨status, answer, _, next⟩
  refine ⟨status, answer, fun _ => next, ?_⟩
  rw [own] at judged
  generalize (hub.onCompletion completion now).1 = after at judged next ⊢
  rw [answer] at judged
  cases judged with
  | kept _ _ same =>
      rw [same]
      exact served.stored
  | finished _ _ found ended =>
      rcases next.stored with ⟨last, found', plan, _⟩
      rw [found] at found'
      cases found'
      exact ⟨_, found, plan, .inl ended⟩

/-- A job that was just added, of which nothing was handed out yet. -/
theorem served_of_new {last : Job} (agree : Journaled hub journal)
    (found : hub.ledger.job? job.id = .ok (some last)) (plan : last.tasks = job.tasks)
    (state : last.state = if job.tasks = [] then .finished else .ready)
    (unsent : ∀ name, (job.id, name) ∉ sentTasks journal)
    (active : hub.accountant.retired.contains job.id = false)
    (silent : job.id ∉ finishedJobs journal) : Served job hub journal where
  followed := by
    intro planned
    apply followed_of_unsent agree found plan _ planned unsent active silent
    rw [state, if_neg planned]
    nofun
  stored := by
    refine ⟨last, found, plan, ?_⟩
    rw [state]
    split
    · exact .inl rfl
    · next planned => exact .inr ⟨planned, rfl⟩

/-! ## All of the jobs -/

/-- The hub serves the jobs, and the journal tells what was handed out and reported on. -/
structure Serves (jobs : List Job) (hub : Hub) (journal : List Entry) : Prop where
  agree : Journaled hub journal
  /-- No two jobs have the same name. -/
  distinct : (jobs.map Job.id).Nodup
  served : ∀ job ∈ jobs, Served job hub journal
  sent : ∀ id task, (id, task) ∈ sentTasks journal → ∃ job ∈ jobs, job.id = id ∧ task ∈ job.taskIds
  retired : ∀ id, hub.accountant.retired.contains id = true → ∃ job ∈ jobs, job.id = id
  /-- A report ends the task that it names. -/
  reported : ∀ id task, (id, task) ∈ reportedTasks journal → Ended journal id task
  finished : ∀ id ∈ finishedJobs journal, ∃ job ∈ jobs, job.id = id ∧ job.tasks ≠ []
  announced : hub.announced = finishedJobs journal
  counted : hub.metrics.jobsFinished = UInt64.ofNat (finishedJobs journal).length

/-- A hub without accounts serves no jobs yet. -/
theorem serves_nil (fresh : hub.accountant = .empty) (filed : hub.ledger.Filed)
    (announced : hub.announced = []) (counted : hub.metrics.jobsFinished = 0) :
    Serves [] hub [] where
  agree := journaled_nil fresh filed
  distinct := List.nodup_nil
  served := fun _ mem => absurd mem List.not_mem_nil
  sent := by
    rintro id task ⟨⟩
  retired := by
    rw [fresh]
    rintro id ⟨⟩
  reported := by
    rintro id task ⟨⟩
  finished := by
    rintro id ⟨⟩
  announced := announced
  counted := counted

namespace Serves

/-- A task that a served job plans is one of a job with tasks. -/
theorem tasks_ne_nil {name : String} (planned : name ∈ job.taskIds) : job.tasks ≠ [] := by
  rcases Job.mem_taskIds.1 planned with ⟨index, inside, _⟩
  exact List.ne_nil_of_length_pos (Nat.zero_lt_of_lt inside)

/-- The job of a name is the only one with it. -/
theorem eq_of_id (serves : Serves jobs hub journal) {other : Job} (mem : job ∈ jobs)
    (mem' : other ∈ jobs) (same : job.id = other.id) : job = other :=
  List.inj_on_of_nodup_map serves.distinct mem mem' same

/-- A step without a task or a report. -/
theorem idle (serves : Serves jobs hub journal) (step : Performed hub after none []) :
    Serves jobs after journal := by
  have agree := serves.agree.performed step
  have metrics := announced_performed step
  have served (job : Job) (mem : job ∈ jobs) := (serves.served job mem).foreign step nofun
  rw [List.append_nil] at agree
  simp only [List.append_nil] at served
  constructor
  · exact agree
  · exact serves.distinct
  · exact served
  · exact serves.sent
  · intro id gone
    rw [(step.aside id nofun).1] at gone
    exact serves.retired id gone
  · exact serves.reported
  · exact serves.finished
  · rw [metrics.1, serves.announced]
    exact List.append_nil _
  · rw [metrics.2, serves.counted]
    exact UInt64.add_zero _

/-- A task that was not handed out before is handed out. -/
theorem dispatch (serves : Serves jobs hub journal) (staffed : Staffed hub) (mem : job ∈ jobs)
    (planned : task.id ∈ job.taskIds) (unsent : (job.id, task.id) ∉ sentTasks journal)
    (now : Instant) :
    (∃ number node, (hub.dispatch job.id task now).2 = .ok (.sent number node)) ∧
      Sent hub (hub.dispatch job.id task now).1 job.id task ∧
      Serves jobs (hub.dispatch job.id task now).1 (journal ++ [.sent job.id task.id]) := by
  have followed := (serves.served job mem).followed (tasks_ne_nil planned)
  have some : ¬ AllEnded journal job := by
    intro all
    rcases Job.mem_taskIds.1 planned with ⟨index, inside, same⟩
    exact unsent (same ▸ (all index inside).sent)
  have active : hub.accountant.retired.contains job.id = false :=
    Bool.not_eq_true _ ▸ mt followed.retired.1 some
  have missing : hub.accountant.hasTask job.id task.id = false :=
    Bool.not_eq_true _ ▸ mt (serves.agree.accounted job.id task.id) unsent
  rcases (serves.served job mem).stored with ⟨last, found, plan, finished | ⟨_, accepts⟩⟩
  · rcases followed.stored with ⟨other, found', _, ended⟩
    rw [found] at found'
    cases found'
    exact absurd (ended.1 finished) some
  rcases sent_of_staffed serves.agree.orderly staffed found accepts active missing now with
    ⟨answer, sent⟩
  refine ⟨answer, sent, ?_⟩
  have step : Performed hub (hub.dispatch job.id task now).1 (.some job.id)
      [.sent job.id task.id] := .handed sent.handed
  generalize (hub.dispatch job.id task now).1 = after at sent step ⊢
  have metrics := announced_performed step
  constructor
  · exact serves.agree.performed step
  · exact serves.distinct
  · intro other mem'
    by_cases same : job.id = other.id
    · obtain rfl := serves.eq_of_id mem mem' same
      exact (serves.served job mem).sent sent planned
    · exact (serves.served other mem').foreign step fun both => same (Option.some.inj both)
  · intro id name entry
    rw [sentTasks_append, List.mem_append] at entry
    rcases entry with early | late
    · exact serves.sent id name early
    · cases List.mem_singleton.1 late
      exact ⟨job, mem, rfl, planned⟩
  · intro id gone
    rw [sent.handed.retired] at gone
    exact serves.retired id gone
  · intro id name entry
    rw [reportedTasks_append, List.mem_append] at entry
    rcases entry with early | late
    · exact (serves.reported id name early).append _
    · cases late
  · intro id entry
    rw [finishedJobs_append, List.mem_append] at entry
    rcases entry with early | late
    · exact serves.finished id early
    · cases late
  · rw [metrics.1, serves.announced, finishedJobs_append]
  · rw [metrics.2, serves.counted, finishedJobs_append, List.length_append, UInt64.ofNat_add]

/-- A report on a task that was handed out is taken into account. -/
theorem report (serves : Serves jobs hub journal)
    (sent : (completion.job, completion.task) ∈ sentTasks journal) (now : Instant) :
    ∃ status, Serves jobs (hub.onCompletion completion now).1
      (journal ++ [.reported completion.job completion.task (.ok status)]) := by
  rcases serves.sent _ _ sent with ⟨job, mem, own, planned⟩
  rcases (serves.served job mem).report (tasks_ne_nil planned) own.symm now with
    ⟨status, answer, served⟩
  have step : Performed hub (hub.onCompletion completion now).1 (some completion.job)
      [.reported completion.job completion.task (hub.onCompletion completion now).2] :=
    performed serves.agree.orderly (.report completion) now
  rw [answer] at step
  refine ⟨status, ?_⟩
  generalize (hub.onCompletion completion now).1 = after at step served ⊢
  have metrics := announced_performed step
  constructor
  · exact serves.agree.performed step
  · exact serves.distinct
  · intro other mem'
    by_cases same : job.id = other.id
    · obtain rfl := serves.eq_of_id mem mem' same
      rw [own] at served
      exact served
    · apply (serves.served other mem').foreign step
      exact fun both => same (own.trans (Option.some.inj both))
  · intro id name entry
    rw [sentTasks_append, List.mem_append] at entry
    rcases entry with early | late
    · exact serves.sent id name early
    · cases late
  · intro id gone
    by_cases same : id = completion.job
    · exact ⟨job, mem, own.trans same.symm⟩
    · rw [(step.aside id fun both => same (Option.some.inj both).symm).1] at gone
      exact serves.retired id gone
  · intro id name entry
    rw [reportedTasks_append, List.mem_append] at entry
    rcases entry with early | late
    · exact (serves.reported id name early).append _
    · cases List.mem_singleton.1 late
      exact ended_append_reported.2 (.inr ⟨rfl, sent⟩)
  · intro id entry
    rw [finishedJobs_append, List.mem_append, finishedJobs_reported] at entry
    rcases entry with early | late
    · exact serves.finished id early
    · exact ⟨job, mem, own.trans (mem_finishedNames late).symm, tasks_ne_nil planned⟩
  · rw [metrics.1, serves.announced, finishedJobs_append]
  · rw [metrics.2, serves.counted, finishedJobs_append, List.length_append, UInt64.ofNat_add]

/-- The first report on a task is not ignored: of the counters, only that of finished jobs changes. -/
theorem metrics_report (serves : Serves jobs hub journal)
    (sent : (completion.job, completion.task) ∈ sentTasks journal)
    (new : (completion.job, completion.task) ∉ reportedTasks journal) (now : Instant) :
    ∃ finished, (hub.onCompletion completion now).1.metrics =
      { hub.metrics with jobsFinished := finished } := by
  have orderly := serves.agree.orderly
  have running : ¬ Ended journal completion.job completion.task := fun ended => new ended.reported
  rcases serves.sent _ _ sent with ⟨job, mem, own, planned⟩
  have followed := (serves.served job mem).followed (tasks_ne_nil planned)
  rw [← own] at sent running
  have present : hub.accountant.hasTask job.id completion.task = true := by
    rcases serves.agree.kept _ _ sent with present | gone
    · exact present
    · rcases Job.mem_taskIds.1 planned with ⟨index, inside, same⟩
      exact absurd (same ▸ followed.retired.1 gone index inside) running
  rcases hasTask_eq_true_iff.1 present with ⟨record, found⟩
  have going : record.state.isTerminal = false :=
    Bool.not_eq_true _ ▸ mt (followed.ended _ record found).1 running
  rw [task?_eq] at found
  rcases kept : hub.accountant.account? job.id with _ | account
  · rw [kept] at found
    cases found
  · rw [kept] at found
    rw [own] at kept
    rw [onCompletion_of_news orderly.free kept found going now]
    exact metrics_finishIfComplete ..

/-- A job with a new name is written down; one without tasks is finished at once. -/
theorem add {ledger : Ledger} {last : Job} (serves : Serves jobs hub journal)
    (new : job.id ∉ jobs.map Job.id) (filed : ledger.Filed)
    (others : ∀ id, id ≠ job.id → ledger.job? id = hub.ledger.job? id)
    (found : ledger.job? job.id = .ok (some last)) (plan : last.tasks = job.tasks)
    (state : last.state = if job.tasks = [] then .finished else .ready) :
    Serves (jobs ++ [job]) { hub with ledger := ledger } journal := by
  have fresh {id : String} (known : ∃ other ∈ jobs, other.id = id) : id ≠ job.id := by
    rcases known with ⟨other, mem, rfl⟩
    exact fun same => new (same ▸ List.mem_map_of_mem mem)
  have widen {id : String} {holds : Job → Prop}
      (known : ∃ other ∈ jobs, other.id = id ∧ holds other) :
      ∃ other ∈ jobs ++ [job], other.id = id ∧ holds other := by
    rcases known with ⟨other, mem, same⟩
    exact ⟨other, List.mem_append_left _ mem, same⟩
  have agree : Journaled { hub with ledger := ledger } journal :=
    ⟨⟨serves.agree.orderly.sound, filed, serves.agree.orderly.free⟩, serves.agree.once,
      serves.agree.accounted, serves.agree.kept⟩
  constructor
  · exact agree
  · rw [List.map_append, List.nodup_append]
    refine ⟨serves.distinct, List.nodup_singleton _, ?_⟩
    rintro id mem _ own rfl
    cases List.mem_singleton.1 own
    exact new mem
  · intro other mem
    rcases List.mem_append.1 mem with old | own
    · have served := serves.served other old
      have same := others other.id (fresh ⟨other, old, rfl⟩)
      constructor
      · intro planned
        have quiet : Followed other { hub with ledger := ledger } (journal ++ []) :=
          (served.followed planned).untouched ((List.append_nil journal).symm ▸ agree) nofun rfl
            same rfl fun _ => rfl
        rw [List.append_nil] at quiet
        exact quiet
      · dsimp only
        rw [same]
        exact served.stored
    · cases List.mem_singleton.1 own
      apply served_of_new agree found plan state
      · intro name entry
        rcases serves.sent _ _ entry with ⟨other, mem, same, _⟩
        exact fresh ⟨other, mem, same⟩ rfl
      · by_contra gone
        exact fresh (serves.retired job.id (by simpa using gone)) rfl
      · intro entry
        rcases serves.finished _ entry with ⟨other, mem, same, _⟩
        exact fresh ⟨other, mem, same⟩ rfl
  · exact fun id task entry => widen (serves.sent id task entry)
  · intro id gone
    rcases serves.retired id gone with ⟨other, mem, same⟩
    exact ⟨other, List.mem_append_left _ mem, same⟩
  · exact serves.reported
  · exact fun id entry => widen (serves.finished id entry)
  · exact serves.announced
  · exact serves.counted

/-! ## The end -/

variable (serves : Serves jobs hub journal)
  (all : ∀ job ∈ jobs, ∀ task ∈ job.taskIds, (job.id, task) ∈ reportedTasks journal)

include serves all

/-- Once there is a report on every task, every task has ended. -/
theorem allEnded (mem : job ∈ jobs) : AllEnded journal job := by
  intro index inside
  exact serves.reported _ _ (all job mem _ (Job.mem_taskIds.2 ⟨index, inside, rfl⟩))

/-- Once there is a report on every task, every job is stored as finished. -/
theorem stored_of_all (mem : job ∈ jobs) :
    ∃ last, hub.ledger.job? job.id = .ok (some last) ∧ last.state = .finished := by
  rcases (serves.served job mem).stored with ⟨last, found, _, finished | ⟨planned, _⟩⟩
  · exact ⟨last, found, finished⟩
  · rcases ((serves.served job mem).followed planned).stored with ⟨other, found, _, ended⟩
    exact ⟨other, found, ended.2 (serves.allEnded all mem)⟩

/-- Once there is a report on every task, a second look at a job with tasks changes nothing. -/
theorem reconcile_of_all (mem : job ∈ jobs) (planned : job.tasks ≠ []) (now : Instant) :
    hub.reconcile job.id now = (hub, .ok .ignored) :=
  reconcile_of_retired serves.agree.orderly
    (((serves.served job mem).followed planned).retired.2 (serves.allEnded all mem)) now

/-- Once there is a report on every task, each job with tasks was declared finished once. -/
theorem finished_of_all :
    (finishedJobs journal).Perm ((jobs.filter fun job => job.tasks ≠ []).map Job.id) := by
  have once {job : Job} (mem : job ∈ jobs) (planned : job.tasks ≠ []) :
      (finishedJobs journal).count job.id = 1 :=
    ((serves.served job mem).followed planned).finished (serves.allEnded all mem)
  have distinct : (finishedJobs journal).Nodup := by
    rw [List.nodup_iff_count_le_one]
    intro id
    by_cases entry : id ∈ finishedJobs journal
    · rcases serves.finished id entry with ⟨job, mem, rfl, planned⟩
      exact Nat.le_of_eq (once mem planned)
    · rw [List.count_eq_zero.2 entry]
      exact Nat.zero_le 1
  have names : ((jobs.filter fun job => job.tasks ≠ []).map Job.id).Nodup :=
    (List.filter_sublist.map Job.id).nodup serves.distinct
  rw [List.perm_ext_iff_of_nodup distinct names]
  intro id
  rw [List.mem_map]
  constructor
  · intro entry
    rcases serves.finished id entry with ⟨job, mem, same, planned⟩
    exact ⟨job, List.mem_filter.2 ⟨mem, by simpa using planned⟩, same⟩
  · rintro ⟨job, mem, rfl⟩
    rcases List.mem_filter.1 mem with ⟨mem, planned⟩
    exact List.count_pos_iff.1 (by rw [once mem (by simpa using planned)]; exact Nat.one_pos)

end Serves

end Hub

end MediaHarvest
