import MediaHarvest.Proofs.Hub.Delay

/-!
# A finish that fails is made good

When the last task of a job ends while the record of the job cannot be read, the report is refused,
but the end of the task and the node that it leaves are not forgotten.  The next report for the job,
or the next look at it, that finds the record again finishes the job, and the hub is as if it had
been finished in time.
-/

namespace MediaHarvest

open Ledger Accountant

/-- The account once a task has ended. -/
def JobAccount.ended (account : JobAccount) (task : String) (record : TaskRecord)
    (state : TaskState) : JobAccount :=
  { account with tasks := account.tasks.insert task { record with state := state } }

namespace Hub

variable {hub start : Hub} {job : Job} {account : JobAccount} {record : TaskRecord}
  {completion : Completion} {now : Instant} {before later : List Incident}

/-! ## The report that ends the last task -/

/-- A report ends the last task of a job that had not ended; all of its tasks are accounted. -/
structure EndsLast (job : Job) (hub : Hub) (completion : Completion) (record : TaskRecord) :
    Prop where
  own : completion.job = job.id
  found : hub.accountant.task? job.id completion.task = some record
  running : record.state.isTerminal = false
  others : ∀ task other, task ≠ completion.task → hub.accountant.task? job.id task = some other →
    other.state.isTerminal = true
  /-- All tasks of the job are accounted. -/
  declared : ∀ task ∈ job.taskIds, hub.accountant.hasTask job.id task = true

/-- The hub once the end of the task is noted. -/
def noteEnd (hub : Hub) (completion : Completion) (account : JobAccount) (record : TaskRecord) :
    Hub :=
  { hub with
    accountant := (hub.accountant.setAccount completion.job
      (account.ended completion.task record completion.taskState)).release record.node 1 }

/-- The account is written with the end of the task. -/
theorem rewritten_noteEnd (orderly : hub.Orderly) (own : completion.job = job.id)
    (kept : hub.accountant.account? job.id = some account) (record : TaskRecord) :
    Rewritten hub.accountant (hub.noteEnd completion account record).accountant job.id
      (account.ended completion.task record completion.taskState) := by
  have isOpen : account.removed = false := removed_of_kept kept
  rw [noteEnd, own]
  exact rewritten_of_insert orderly.sound isOpen (orderly.sound.active_of_kept kept)
    (release_jobs ..) (release_retired ..) (release_holder ..)

/-- Of the tasks of the job, the one that has ended is changed. -/
theorem task?_noteEnd (orderly : hub.Orderly) (own : completion.job = job.id)
    (kept : hub.accountant.account? job.id = some account) (record : TaskRecord) (task : String) :
    (hub.noteEnd completion account record).accountant.task? job.id task =
      if task = completion.task then some { record with state := completion.taskState }
      else hub.accountant.task? job.id task := by
  rw [(rewritten_noteEnd orderly own kept record).task?, if_pos rfl, JobAccount.ended,
    SortedMap.get?_insert, task?_of_kept kept]

namespace EndsLast

theorem kept (last : EndsLast job hub completion record) :
    ∃ account, hub.accountant.account? job.id = some account ∧
      account.tasks.get? completion.task = some record := by
  have found := last.found
  rw [task?_eq] at found
  exact Option.bind_eq_some_iff.1 found

/-- Only the accounts matter. -/
theorem of_accountant {after : Hub} (last : EndsLast job hub completion record)
    (same : after.accountant = hub.accountant) : EndsLast job after completion record := by
  refine ⟨last.own, ?_, last.running, ?_, ?_⟩
  · rw [same]
    exact last.found
  · rw [same]
    exact last.others
  · rw [same]
    exact last.declared

/-- With that, all tasks of the job have ended. -/
theorem overdue (last : EndsLast job hub completion record) (orderly : hub.Orderly)
    (kept : hub.accountant.account? job.id = some account)
    (plan : ∀ stored, hub.ledger.job? job.id = .ok (some stored) → stored.tasks = job.tasks) :
    Overdue job (account.ended completion.task record completion.taskState)
      (hub.noteEnd completion account record) := by
  have rewritten := rewritten_noteEnd orderly last.own kept record
  refine ⟨⟨rewritten.sound, orderly.filed, rewritten.holder.trans orderly.free⟩, rewritten.is, ?_,
    ?_, plan⟩
  · refine JobAccount.allTerminal_iff.2 fun task other found => ?_
    rw [JobAccount.ended, SortedMap.get?_insert] at found
    split at found
    · cases found
      exact completion.verdict.taskState_isTerminal
    · next differ => exact last.others task other differ ((task?_of_kept kept task).trans found)
  · intro task mem
    have declared := last.declared task mem
    rw [hasTask, task?_of_kept kept] at declared
    rw [JobAccount.ended, SortedMap.contains, SortedMap.get?_insert]
    split
    · rfl
    · exact declared

/-- The report asks whether the job is finished then. -/
theorem onCompletion (last : EndsLast job hub completion record) (orderly : hub.Orderly)
    (kept : hub.accountant.account? job.id = some account)
    (found : account.tasks.get? completion.task = some record)
    (plan : ∀ stored, hub.ledger.job? job.id = .ok (some stored) → stored.tasks = job.tasks)
    (now : Instant) :
    hub.onCompletion completion now =
      (hub.noteEnd completion account record).conclude job.id now := by
  rw [onCompletion_of_news orderly.free (last.own ▸ kept) found last.running]
  have asks := (last.overdue orderly kept plan).finishIfComplete now
  rw [noteEnd] at asks ⊢
  rw [last.own] at asks ⊢
  exact asks

end EndsLast

/-- The hub with the record of a job put back. -/
def restored (hub : Hub) (job : Job) (text : Bytes) : Hub :=
  { hub with ledger := hub.ledger.overwrite job.id (some text) }

/-- With the record of the job put back, the report finishes the job. -/
theorem EndsLast.onCompletion_restored (last : EndsLast job hub completion record)
    (orderly : hub.Orderly) (kept : hub.accountant.account? job.id = some account)
    (found : account.tasks.get? completion.task = some record) {text : Bytes}
    (read : readValue Job.codec text = .ok job) (now : Instant) :
    (hub.restored job text).onCompletion completion now =
      ((hub.noteEnd completion account record).settle (job.withState .finished now)
        (hub.announced ++ [job.id]), .ok .finished) := by
  have there : (hub.restored job text).ledger.job? job.id = .ok (some job) :=
    job?_overwrite_eq_ok_iff.2 ⟨text, rfl, read⟩
  have proper : (Incident.overwrite job.id (some text)).Proper := by
    rintro _ other ⟨⟩ same
    rw [read] at same
    cases same
    rfl
  have intact : (hub.restored job text).Orderly := orderly_happen orderly proper
  have ends : EndsLast job (hub.restored job text) completion record := last.of_accountant rfl
  have plan (stored : Job)
      (other : (hub.restored job text).ledger.job? job.id = .ok (some stored)) :
      stored.tasks = job.tasks := by
    cases there.symm.trans other
    rfl
  have noted : ((hub.restored job text).noteEnd completion account record).ledger.job job.id =
      .ok job := job_eq_ok_iff.2 there
  have written := rerecorded_overwrite (hub.noteEnd completion account record) job.id (some text)
  have same : (job.withState .finished now).id = job.id := rfl
  rw [ends.onCompletion intact kept found plan now, conclude_of_found noted,
    ← written.settle same]
  rfl

/-- The report is refused because the record of the job is lost; only the end of the task is noted,
and its node is left. -/
structure Deferred (job : Job) (hub : Hub) (completion : Completion) (record : TaskRecord)
    (ends : Hub × Except CompletionError CompletionStatus) : Prop where
  refused : ∃ error, hub.ledger.job job.id = .error error ∧ ends.2 = .error (.ledger error)
  /-- The stored jobs and whatever else is on record stay. -/
  ledger : ends.1.ledger = hub.ledger
  metrics : ends.1.metrics = hub.metrics
  retired : ends.1.accountant.retired = hub.accountant.retired
  announced : ends.1.announced = hub.announced
  noted : ends.1.accountant.task? job.id completion.task =
    some { record with state := completion.taskState }
  terminal : completion.taskState.isTerminal = true
  released : ∀ node, ends.1.accountant.load node + (if record.node = node then 1 else 0) =
    hub.accountant.load node

theorem lost_count {id : String} (lost : hub.ledger.Lost id) (change : Metrics → Metrics) :
    (hub.count change).ledger.Lost id := lost

theorem EndsLast.deferred (last : EndsLast job hub completion record) (orderly : hub.Orderly)
    (weighed : hub.Weighed) (lost : hub.ledger.Lost job.id) (now : Instant) :
    Deferred job hub completion record (hub.onCompletion completion now) := by
  obtain ⟨account, kept, found⟩ := last.kept
  have lost' : (hub.noteEnd completion account record).ledger.Lost job.id := lost
  obtain ⟨error, refused, same⟩ := conclude_of_lost lost' now
  rw [last.onCompletion orderly kept found (fun stored read => absurd read (lost stored)), same]
  refine ⟨⟨error, refused, rfl⟩, rfl, rfl, (rewritten_noteEnd orderly last.own kept record).retired,
    rfl, ?_,
    completion.verdict.taskState_isTerminal, fun node => ?_⟩
  · rw [task?_noteEnd orderly last.own kept, if_pos rfl]
  · have busy := weighed.balanced.one_le_load (get?_of_account? kept) found last.running
    dsimp only [noteEnd]
    rw [load_release]
    by_cases same : record.node = node
    · subst same
      simp only [if_true]
      exact Nat.sub_add_cancel busy
    · simp only [if_neg same]
      rfl

/-! ## What follows -/

/-- A run from a hub without accounts, at whose end a report ends the last task of a job while the
record of the job is lost. -/
structure FailedFinish (start : Hub) (before : List Incident) (job : Job) (completion : Completion)
    (record : TaskRecord) : Prop where
  fresh : start.accountant = .empty
  filed : start.ledger.Filed
  concluded : start.ledger.Concluded
  proper : ∀ incident ∈ before, incident.Proper
  last : EndsLast job (undergo before start).1 completion record
  lost : (undergo before start).1.ledger.Lost job.id

/-- The run in which the finish failed. -/
def lateRun (before : List Incident) (completion : Completion) (now : Instant)
    (later : List Incident) : List Incident :=
  before ++ .call (.report completion) now :: later

/-- The run in which the record of the job was there in time.  What happened later goes on in it,
where that does not concern the lost record. -/
def promptRun (start : Hub) (before : List Incident) (job : Job) (text : Bytes)
    (completion : Completion) (now : Instant) (later : List Incident) : List Incident :=
  before ++ .overwrite job.id (some text) :: .call (.report completion) now ::
    goingOn job.id later ((undergo before start).1.onCompletion completion now).1

/-- The answer to any question whether a job is finished, after a run: that it is, once its record
can be read, and nothing afterwards. -/
def due (late : Hub × List Entry) (id : String) : Except CompletionError CompletionStatus :=
  if id ∈ finishedJobs late.2 then .ok .ignored
  else
    match late.1.ledger.job id with
    | .error error => .error (.ledger error)
    | .ok _ => .ok .finished

/-- The job is finished by the first question that finds its record, and by no other one. -/
structure Redeemable (job : Job) (completion : Completion) (record : TaskRecord)
    (late : Hub × List Entry) : Prop where
  report : ∀ other moment, other.job = job.id →
    (late.1.onCompletion other moment).2 = due late job.id
  reconcile : ∀ moment, (late.1.reconcile job.id moment).2 = due late job.id
  once : (finishedJobs late.2).count job.id ≤ 1
  /-- The end of the task stays noted until the job is finished. -/
  noted : job.id ∉ finishedJobs late.2 →
    late.1.accountant.task? job.id completion.task =
      some { record with state := completion.taskState }
  balanced : late.1.accountant.Balanced

/-- The first question whether a job is finished that finds its record again. -/
structure Occasion (job : Job) (asked : Call) (late : Hub × List Entry) : Prop where
  asks : asked.Asks job.id
  unfinished : job.id ∉ finishedJobs late.2
  found : ∃ last, late.1.ledger.job? job.id = .ok (some last)

theorem snd_conclude (hub : Hub) (id : String) (now : Instant) :
    (hub.conclude id now).2 =
      match hub.ledger.job id with
      | .error error => .error (.ledger error)
      | .ok _ => .ok .finished := by
  rw [conclude]
  cases hub.ledger.job id <;> rfl

theorem redeemable_of_overcome {late : Hub × List Entry}
    (overcome : Overcome job account late.1 late.2)
    (noted : account.tasks.get? completion.task =
      some { record with state := completion.taskState })
    (orderly : late.1.Orderly) (balanced : late.1.accountant.Balanced) :
    Redeemable job completion record late := by
  cases overcome with
  | waits silent overdue =>
      have unfinished : job.id ∉ finishedJobs late.2 := List.count_eq_zero.1 silent
      have awaited : due late job.id = (late.1.conclude job.id .epoch).2 := by
        rw [due, if_neg unfinished, snd_conclude]
      refine ⟨fun other moment own => ?_, fun moment => ?_, by omega, fun _ => ?_, balanced⟩
      · rw [overdue.onCompletion own, awaited, snd_conclude, snd_conclude]
        rfl
      · rw [overdue.reconcile, awaited, snd_conclude, snd_conclude]
      · rw [task?_of_kept overdue.kept, noted]
  | done said gone =>
      have finished : job.id ∈ finishedJobs late.2 := List.count_pos_iff.1 (by omega)
      have settled : due late job.id = .ok .ignored := if_pos finished
      refine ⟨fun other moment own => ?_, fun moment => ?_, by omega,
        fun unfinished => absurd finished unfinished, balanced⟩
      · rw [onCompletion_of_gone orderly.free (own ▸ account?_of_retired orderly gone), settled]
      · rw [reconcile_of_retired orderly gone, settled]

namespace FailedFinish

variable (failed : FailedFinish start before job completion record)
include failed

theorem orderly_start : start.Orderly := (alive_of_fresh failed.fresh failed.filed).orderly

theorem orderly : (undergo before start).1.Orderly :=
  orderly_undergo before start failed.orderly_start failed.proper

theorem weighed_start : start.Weighed := ⟨failed.fresh ▸ balanced_empty, failed.concluded⟩

theorem weighed : (undergo before start).1.Weighed :=
  failed.weighed_start.undergo before start failed.orderly_start failed.proper

/-- The job was not declared finished before. -/
theorem count_before : (finishedJobs (undergo before start).2).count job.id = 0 := by
  obtain ⟨account, kept, _⟩ := failed.last.kept
  cases declared_undergo before start failed.orderly_start failed.proper job.id with
  | not silent => exact silent
  | once _ _ gone =>
      rw [failed.orderly.sound.active_of_kept kept] at gone
      cases gone

/-- No record of the job has other tasks, as there is none. -/
theorem plan (stored : Job)
    (read : (undergo before start).1.ledger.job? job.id = .ok (some stored)) :
    stored.tasks = job.tasks := absurd read (failed.lost stored)

/-- The report is refused, and only the end of the task is noted. -/
theorem onCompletion (kept : (undergo before start).1.accountant.account? job.id = some account)
    (found : account.tasks.get? completion.task = some record) (now : Instant) :
    ∃ error, (undergo before start).1.onCompletion completion now =
      ((undergo before start).1.noteEnd completion account record, .error (.ledger error)) := by
  have lost : ((undergo before start).1.noteEnd completion account record).ledger.Lost job.id :=
    failed.lost
  obtain ⟨error, _, concluded⟩ := conclude_of_lost lost now
  exact ⟨error, (failed.last.onCompletion failed.orderly kept found failed.plan now).trans concluded⟩

/-- The job is overdue then. -/
theorem overdue (now : Instant) :
    ∃ account, Overdue job account ((undergo before start).1.onCompletion completion now).1 ∧
      account.tasks.get? completion.task =
        some { record with state := completion.taskState } := by
  obtain ⟨account, kept, found⟩ := failed.last.kept
  obtain ⟨error, refused⟩ := failed.onCompletion kept found now
  rw [refused]
  exact ⟨_, failed.last.overdue failed.orderly kept failed.plan,
    (SortedMap.get?_insert ..).trans (if_pos rfl)⟩

/-- Whatever follows, follows on the refused report, which says nothing of the job. -/
theorem undergo_late (now : Instant) (later : List Incident) :
    (undergo (lateRun before completion now later) start).1 =
        (undergo later ((undergo before start).1.onCompletion completion now).1).1 ∧
      (finishedJobs (undergo (lateRun before completion now later) start).2).count job.id =
        (finishedJobs (undergo later
          ((undergo before start).1.onCompletion completion now).1).2).count job.id := by
  obtain ⟨account, kept, found⟩ := failed.last.kept
  obtain ⟨error, refused⟩ := failed.onCompletion kept found now
  rw [lateRun, undergo_append, finishedJobs_append, List.count_append, failed.count_before,
    Nat.zero_add]
  refine ⟨rfl, ?_⟩
  rw [undergo, finishedJobs_append, Incident.happen, Call.perform, finishedJobs_reported, refused]
  rfl

theorem redeemable (now : Instant) (keeps : ∀ incident ∈ later, incident.KeepsTo job) :
    Redeemable job completion record (undergo (lateRun before completion now later) start) := by
  obtain ⟨account, overdue, noted⟩ := failed.overdue now
  obtain ⟨same, counts⟩ := failed.undergo_late now later
  have proper : ∀ incident ∈ lateRun before completion now later, incident.Proper := by
    intro incident mem
    rcases List.mem_append.1 mem with early | late
    · exact failed.proper incident early
    · rcases List.mem_cons.1 late with rfl | late
      · trivial
      · exact (keeps incident late).proper
  have orderly := orderly_undergo _ start failed.orderly_start proper
  have balanced := (failed.weighed_start.undergo _ start failed.orderly_start proper).balanced
  have overcome := overdue.undergo later _ keeps
  rw [← same] at overcome
  exact redeemable_of_overcome (overcome.of_count counts) noted orderly balanced

/-- Had the record been there in time, the report would have finished the job, and whatever goes on
would follow on that. -/
theorem undergo_prompt (now : Instant) {text : Bytes} (read : readValue Job.codec text = .ok job)
    (later : List Incident) :
    (undergo (promptRun start before job text completion now later) start).1 =
      (undergo (goingOn job.id later ((undergo before start).1.onCompletion completion now).1)
        (((undergo before start).1.onCompletion completion now).1.settle
          (job.withState .finished now) ((undergo before start).1.announced ++ [job.id]))).1 := by
  obtain ⟨account, kept, found⟩ := failed.last.kept
  obtain ⟨error, refused⟩ := failed.onCompletion kept found now
  have finishes := failed.last.onCompletion_restored failed.orderly kept found read now
  have reached : (undergo (promptRun start before job text completion now later) start).1 =
      (undergo (goingOn job.id later ((undergo before start).1.onCompletion completion now).1)
        (((undergo before start).1.restored job text).onCompletion completion now).1).1 := by
    rw [promptRun, undergo_append]
    rfl
  rw [reached, finishes, refused]

/-- The first question that finds the record of the job again finishes it, and nothing depends on
the delay. -/
theorem madeGood (now : Instant) (keeps : ∀ incident ∈ later, incident.KeepsTo job) {text : Bytes}
    (read : readValue Job.codec text = .ok job)
    (records : RecordsAs job later ((undergo before start).1.onCompletion completion now).1)
    {asked : Call}
    (occasion : Occasion job asked (undergo (lateRun before completion now later) start))
    (moment : Instant) :
    (finishedJobs (undergo (lateRun before completion now (later ++ [.call asked moment]))
        start).2).count job.id = 1 ∧
      MadeGood job
        (undergo (lateRun before completion now (later ++ [.call asked moment])) start).1
        (undergo (promptRun start before job text completion now
          (later ++ [.call asked moment])) start).1 := by
  obtain ⟨account, overdue, _⟩ := failed.overdue now
  obtain ⟨same, counts⟩ := failed.undergo_late now later
  obtain ⟨asks, unfinished, last, found⟩ := occasion
  have silent := List.count_eq_zero.2 unfinished
  rw [counts] at silent
  rw [same] at found
  have whole : job.limits.Whole :=
    whole_of_job? (job?_overwrite_eq_ok_iff.2 ⟨text, rfl, read⟩ :
      (start.ledger.overwrite job.id (some text)).job? job.id = .ok (some job))
  have closes : (job.withState .finished now).Closes job := ⟨rfl, rfl, rfl, whole⟩
  obtain ⟨once, good⟩ := overdue.madeGood closes rfl rfl keeps records
    (List.count_eq_zero.1 silent) found asks moment
  obtain ⟨same, counts⟩ := failed.undergo_late now (later ++ [.call asked moment])
  refine ⟨counts.trans once, ?_⟩
  rw [same]
  have announced := (failed.last.deferred failed.orderly failed.weighed failed.lost now).announced
  rw [announced] at good
  rw [failed.undergo_prompt now read]
  exact good

end FailedFinish

/-- A finish that failed is put off, and made good once the record of the job can be read again:
with the record `text` in time, the hub would have come to the same. -/
structure Redeemed (start : Hub) (before : List Incident) (job : Job) (completion : Completion)
    (record : TaskRecord) (now : Instant) (later : List Incident) : Prop where
  deferred : Deferred job (undergo before start).1 completion record
    ((undergo before start).1.onCompletion completion now)
  redeemable : Redeemable job completion record
    (undergo (lateRun before completion now later) start)
  madeGood : ∀ text asked moment, readValue Job.codec text = .ok job →
    RecordsAs job later ((undergo before start).1.onCompletion completion now).1 →
    Occasion job asked (undergo (lateRun before completion now later) start) →
    (finishedJobs (undergo (lateRun before completion now (later ++ [.call asked moment]))
        start).2).count job.id = 1 ∧
      MadeGood job
        (undergo (lateRun before completion now (later ++ [.call asked moment])) start).1
        (undergo (promptRun start before job text completion now
          (later ++ [.call asked moment])) start).1

/-- Whenever the last task of a job ends while the record of the job cannot be read, the finish that
fails is made good later, whatever happens meanwhile. -/
theorem redeemed_failedFinish (failed : FailedFinish start before job completion record)
    (now : Instant) (later : List Incident)
    (keeps : ∀ incident ∈ later, incident.KeepsTo job) :
    Redeemed start before job completion record now later where
  deferred := failed.last.deferred failed.orderly failed.weighed failed.lost now
  redeemable := failed.redeemable now keeps
  madeGood _ _ moment read records occasion :=
    failed.madeGood now keeps read records occasion moment

/-! ## A record that is lost for a while -/

/-- Both tasks are handed out, and one of them has ended when the record is taken away. -/
def takenAway : List Incident :=
  [.call (.startJob twoLinks.id) .epoch, .call (.report (linkChecked 1)) .epoch,
    .overwrite twoLinks.id none]

/-- The report on the other task comes in once more before the record is put back. -/
def putBack : List Incident :=
  [.call (.report (linkChecked 0)) .epoch,
    .overwrite twoLinks.id (some (Job.codec.writeText twoLinks))]

/-- A job with a task that has not ended is not complete. -/
theorem isComplete_of_running {id task : String}
    (found : hub.accountant.task? id task = some record)
    (running : record.state.isTerminal = false) : hub.isComplete id = false := by
  rw [task?_eq] at found
  obtain ⟨account, kept, found⟩ := Option.bind_eq_some_iff.1 found
  have unfinished : account.allTerminal = false := by
    by_contra ended
    have ended := JobAccount.allTerminal_iff.1 (by simpa using ended) task record found
    rw [running] at ended
    cases ended
  rw [isComplete, kept]
  cases hub.ledger.job? id with
  | error error => rfl
  | ok answer =>
      cases answer with
      | none => rfl
      | some job => simp [unfinished]

theorem mem_twoLinks_taskIds {task : String} :
    task ∈ twoLinks.taskIds ↔ task = twoLinks.taskId 0 ∨ task = twoLinks.taskId 1 := by
  simp [Job.taskIds, twoLinks, List.range_succ]

/-- Once the second task has ended, only the first one is left. -/
theorem endsLast_linkChecked (orderly : hub.Orderly) {first second : TaskRecord}
    (here : hub.accountant.task? twoLinks.id (twoLinks.taskId 0) = some first)
    (running : first.state.isTerminal = false)
    (there : hub.accountant.task? twoLinks.id (twoLinks.taskId 1) = some second)
    (running' : second.state.isTerminal = false)
    (only : ∀ task record, hub.accountant.task? twoLinks.id task = some record →
      task ∈ twoLinks.taskIds) :
    EndsLast twoLinks (hub.onCompletion (linkChecked 1) .epoch).1 (linkChecked 0) first := by
  have found := there
  rw [task?_eq] at found
  obtain ⟨account, kept, found⟩ := Option.bind_eq_some_iff.1 found
  have own : (linkChecked 1).job = twoLinks.id := rfl
  have stands := task?_noteEnd orderly own kept second
  have apart : twoLinks.taskId 0 ≠ twoLinks.taskId 1 := by simp [Job.taskId_inj]
  have left : (hub.noteEnd (linkChecked 1) account second).accountant.task? twoLinks.id
      (twoLinks.taskId 0) = some first := (stands _).trans ((if_neg apart).trans here)
  have news := onCompletion_of_news orderly.free (own ▸ kept) found running' .epoch
  have goes : (hub.onCompletion (linkChecked 1) .epoch).1 =
      hub.noteEnd (linkChecked 1) account second := by
    rw [news]
    exact finishIfComplete_of_incomplete (isComplete_of_running left running) .epoch
  rw [goes]
  refine ⟨rfl, left, running, fun task other differ there => ?_, fun task mem => ?_⟩
  · rw [stands] at there
    split at there
    · cases there
      exact (linkChecked 1).verdict.taskState_isTerminal
    · next differ' =>
      rcases mem_twoLinks_taskIds.1 (only task other there) with same | same
      · exact absurd same differ
      · exact absurd same differ'
  · rcases mem_twoLinks_taskIds.1 mem with rfl | rfl
    · rw [hasTask, left]
      rfl
    · have ended := (stands (twoLinks.taskId 1)).trans (if_pos rfl)
      rw [hasTask, ended]
      rfl

theorem accountant_overwritten (hub : Hub) (id : String) (bytes : Option Bytes) :
    (Incident.happen (.overwrite id bytes) hub).1.accountant = hub.accountant := rfl

/-- Only the end of the first task is missing when the record is taken away. -/
theorem failedFinish_takenAway :
    ∃ record, FailedFinish pairHub takenAway twoLinks (linkChecked 0) record := by
  -- stated for any hub, so that no state of this one is computed
  have reached (hub : Hub) : (undergo takenAway hub).1 =
      (Incident.happen (.overwrite twoLinks.id none)
        ((hub.startJob twoLinks.id .epoch).1.onCompletion (linkChecked 1) .epoch).1).1 := rfl
  have reached := reached pairHub
  have step := handed_startJob pairHub_orderly twoLinks.id .epoch
  have within := startJobSent_subset pairHub_orderly pairHub_stored .epoch
  have inside : 0 < twoLinks.tasks.length ∧ 1 < twoLinks.tasks.length := by decide
  obtain ⟨first, here, pending⟩ := step.pending _ (pairHub_sent inside.1)
  obtain ⟨second, there, pending'⟩ := step.pending _ (pairHub_sent inside.2)
  have only (task : String) (record : TaskRecord)
      (found : (pairHub.startJob twoLinks.id .epoch).1.accountant.task? twoLinks.id task =
        some record) : task ∈ twoLinks.taskIds := by
    by_contra outside
    rw [step.others task fun sent => outside (within sent)] at found
    cases found
  have last := endsLast_linkChecked step.touched.orderly here (by rw [pending]; rfl) there
    (by rw [pending']; rfl) only
  generalize ((pairHub.startJob twoLinks.id .epoch).1.onCompletion (linkChecked 1) .epoch).1 = hub
    at reached last
  refine ⟨first, rfl, pairHub_filed, concluded_of_bare rfl, ?_, ?_, ?_⟩
  · simp [takenAway, Incident.Proper]
  · rw [reached]
    exact last.of_accountant (accountant_overwritten ..)
  · rw [reached]
    intro job found
    obtain ⟨text, put, _⟩ := job?_overwrite_eq_ok_iff.1 found
    cases put

theorem read_twoLinks : readValue Job.codec (Job.codec.writeText twoLinks) = .ok twoLinks := by
  have law : Job.codec.ReadsBack 127 twoLinks := Job.codec_readsBack Limits.whole_unlimited
  rw [readValue, law.readText]
  rfl

theorem keeps_putBack : ∀ incident ∈ putBack, incident.KeepsTo twoLinks := by
  have same {text : Bytes} {job : Job} (put : some (Job.codec.writeText twoLinks) = some text)
      (read : readValue Job.codec text = .ok job) : job = twoLinks := by
    rw [← Option.some.inj put] at read
    exact Except.ok.inj (read.symm.trans read_twoLinks)
  intro incident mem
  rcases List.mem_pair.1 mem with rfl | rfl
  · trivial
  · refine ⟨fun text job put read => ?_, fun _ text last put read => ?_⟩
    · rw [same put read]
    · rw [same put read]

/-- When the record is back, the job is still to be finished. -/
theorem occasion_putBack {record : TaskRecord}
    (failed : FailedFinish pairHub takenAway twoLinks (linkChecked 0) record) :
    Occasion twoLinks (.report (linkChecked 2))
      (undergo (lateRun takenAway (linkChecked 0) .epoch putBack) pairHub) := by
  obtain ⟨account, overdue, _⟩ := failed.overdue .epoch
  obtain ⟨same, counts⟩ := failed.undergo_late .epoch putBack
  have ledger := (failed.last.deferred failed.orderly failed.weighed failed.lost .epoch).ledger
  have lost := failed.lost
  rw [← ledger] at lost
  generalize ((undergo takenAway pairHub).1.onCompletion (linkChecked 0) .epoch).1 = deferred
    at overdue same counts lost
  have own : (linkChecked 0).job = twoLinks.id := rfl
  obtain ⟨error, _, refused⟩ := conclude_of_lost (lost_count lost Metrics.eventIgnored) .epoch
  have again := (overdue.onCompletion own .epoch).trans refused
  refine ⟨rfl, List.count_eq_zero.1 (counts.trans ?_), twoLinks, ?_⟩
  · rw [putBack, undergo, undergo, undergo, Incident.happen, Call.perform, again]
    rfl
  · rw [same]
    exact job?_overwrite_eq_ok_iff.2 ⟨_, rfl, read_twoLinks⟩

/-- A report on a task that is not accounted finishes the job, as if the record had never been
lost. -/
theorem redeemed_takenAway :
    ∃ record, FailedFinish pairHub takenAway twoLinks (linkChecked 0) record ∧
      (∀ incident ∈ putBack, incident.KeepsTo twoLinks) ∧
      Redeemed pairHub takenAway twoLinks (linkChecked 0) record .epoch putBack ∧
      MadeGood twoLinks
        (undergo (lateRun takenAway (linkChecked 0) .epoch
          (putBack ++ [.call (.report (linkChecked 2)) .epoch])) pairHub).1
        (undergo (promptRun pairHub takenAway twoLinks (Job.codec.writeText twoLinks)
          (linkChecked 0) .epoch
          (putBack ++ [.call (.report (linkChecked 2)) .epoch])) pairHub).1 := by
  obtain ⟨record, failed⟩ := failedFinish_takenAway
  have redeemed := redeemed_failedFinish failed .epoch putBack keeps_putBack
  exact ⟨record, failed, keeps_putBack, redeemed, (redeemed.madeGood _ _ .epoch read_twoLinks
    ⟨trivial, trivial, trivial⟩ (occasion_putBack failed)).2⟩

end Hub

end MediaHarvest
