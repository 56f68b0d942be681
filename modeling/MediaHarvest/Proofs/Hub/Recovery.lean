import MediaHarvest.Proofs.Hub.Loads
import MediaHarvest.Proofs.Ledger.Readable

/-!
# Lost reports are recovered

A report that was recorded need not come in.  Once every task of a job was handed out and a report
on each was recorded, whichever of them came in as well, a second look leaves the job as the reports
would have: finished once, retired, and off the loads of the nodes.  Whatever comes in for it later
is ignored.
-/

namespace MediaHarvest

open Ledger Accountant

/-! ## What stays on record -/

namespace Ledger

variable {ledger after : Ledger} {resource job : String} {kind : TaskKind}

/-- An execution is on record. -/
def Knows (ledger : Ledger) (resource job : String) (kind : TaskKind) : Prop :=
  ∃ execution, ledger.execution? resource job kind = .ok (some execution)

theorem Knows.of_executions_eq (known : ledger.Knows resource job kind)
    (same : after.executions = ledger.executions) : after.Knows resource job kind := by
  rw [Knows, execution?_of_executions_eq same]
  exact known

/-- What is on record stays, be it under the key of another job. -/
theorem Knows.appended {execution : Execution} (known : ledger.Knows resource job kind)
    (appended : Appended ledger after execution) : after.Knows resource job kind := by
  by_cases same : executionKey resource job kind =
      executionKey execution.resource execution.measurements.job execution.kind
  · rcases appended.known with ⟨other, found, _⟩
    exact ⟨other, (congrArg (fetch Execution.codec after.executions) same).trans found⟩
  · rcases known with ⟨other, found⟩
    exact ⟨other, (appended.others _ _ _ same).trans found⟩

theorem Knows.record (known : ledger.Knows resource job kind) (completion : Completion)
    (now : Instant) : (ledger.record completion now).1.Knows resource job kind := by
  have written := ledger.written_record completion now
  generalize (ledger.record completion now).1 = after at written ⊢
  cases written with
  | nothing => exact known
  | appended found appended => exact known.appended appended
  | renewed found about appended renewal =>
      exact (known.appended appended).of_executions_eq (executions_renew ..)

/-- What was recorded is on record. -/
theorem knows_of_recorded {completion : Completion} {now : Instant} {recording : Recording}
    (done : (ledger.record completion now).2 = .ok recording) :
    (ledger.record completion now).1.Knows completion.resource completion.job completion.kind := by
  rw [record] at done ⊢
  cases prepared : ledger.prepare completion now with
  | error error =>
      rw [prepared] at done
      cases done
  | ok answer =>
      obtain ⟨execution, resource⟩ := answer
      obtain ⟨job, _, _, rfl⟩ := prepare_eq_ok_iff.1 prepared
      rw [prepared] at done
      dsimp only at done ⊢
      split at done
      · cases done
      · next middle fresh written =>
        obtain ⟨other, found, _⟩ := (appended_append written).known
        have known : middle.Knows completion.resource completion.job completion.kind :=
          ⟨other, found⟩
        split at done
        · cases done
        · exact known
        · exact known.of_executions_eq (executions_renew ..)

end Ledger

/-! ## Calls that keep to the plan -/

/-- A call that keeps to the plan of a job: for the job itself only what it plans is handed out, and
it is not removed.  Anything may be reported, recorded and looked at again, for any job. -/
def Call.OnPlan (job : Job) : Call → Prop
  | .dispatch id task => id = job.id → ∃ index, job.Plans index task.id task.resource task.kind
  | .removeJob id => id ≠ job.id
  | _ => True

namespace Hub

variable {hub after : Hub} {job : Job} {id : String} {calls : List Call} {journal : List Entry}
  {now : Instant}

theorem knows_perform (orderly : hub.Orderly) {resource name : String} {kind : TaskKind}
    (known : hub.ledger.Knows resource name kind) (call : Call) (now : Instant) :
    (call.perform now hub).1.ledger.Knows resource name kind := by
  by_cases recording : ∃ completion, call = .record completion
  · obtain ⟨completion, rfl⟩ := recording
    rw [Call.perform, ledger_record]
    exact known.record completion now
  · exact known.of_executions_eq <| executions_perform orderly call now fun completion same =>
      recording ⟨completion, same⟩

theorem knows_run {resource name : String} {kind : TaskKind} (calls : List (Call × Instant))
    (hub : Hub) (orderly : hub.Orderly) (known : hub.ledger.Knows resource name kind) :
    (run calls hub).1.ledger.Knows resource name kind := by
  induction calls generalizing hub with
  | nil => exact known
  | cons step rest ih =>
      obtain ⟨call, now⟩ := step
      exact ih _ ((performed orderly call now).orderly orderly) (knows_perform orderly known call now)

/-- What a hub answers to a recording its ledger answers. -/
theorem answer_record (hub : Hub) (completion : Completion) (now : Instant) :
    (hub.record completion now).2 = (hub.ledger.record completion now).2 := by
  rw [record]
  rcases hub.ledger.record completion now with ⟨ledger, error | recording⟩
  · rfl
  · rfl

/-- A report on the task at a position was recorded in a run. -/
structure TakenDown (calls : List (Call × Instant)) (hub : Hub) (job : Job) (index : Nat) :
    Prop where
  recorded : ∃ before completion now later recording,
    calls = before ++ (.record completion, now) :: later ∧
      completion.job = job.id ∧
      job.Plans index completion.task completion.resource completion.kind ∧
      ((run before hub).1.record completion now).2 = .ok recording

/-- A task whose report was recorded was heard of. -/
theorem TakenDown.heard {steps : List (Call × Instant)} {index : Nat}
    (taken : TakenDown steps hub job index) : HeardOf (steps.map Prod.fst) job index := by
  rcases taken.recorded with ⟨before, completion, _, later, _, rfl, own, plans, _⟩
  rcases plans with ⟨_, planned, there, resource, kind⟩
  exact .recorded (by simp) own there resource.symm kind.symm

/-- What was recorded on the way is on record in the end. -/
theorem TakenDown.knows {steps : List (Call × Instant)} {index : Nat} {planned : PlannedTask}
    (taken : TakenDown steps hub job index) (orderly : hub.Orderly)
    (there : job.tasks[index]? = some planned) :
    (run steps hub).1.ledger.Knows planned.resource job.id planned.kind := by
  rcases taken.recorded with ⟨before, completion, now, later, recording, rfl, own, plans, done⟩
  rcases plans with ⟨_, other, there', resource, kind⟩
  rw [there] at there'
  cases there'
  rw [resource, kind, ← own, run_append]
  have middle := orderly_run before hub orderly
  generalize (run before hub).1 = reached at middle done ⊢
  apply knows_run later
  · exact (performed middle _ now).orderly middle
  · rw [Call.perform, ledger_record]
    rw [answer_record] at done
    exact knows_of_recorded done

/-! ## What an answer means for its job -/

/-- What comes of the question whether a job is finished: it is finished now, or nothing of it but
its tasks has changed. -/
inductive Judged (hub after : Hub) (id : String) :
    Except CompletionError CompletionStatus → Prop where
  | kept {answer : Except CompletionError CompletionStatus} (unfinished : answer ≠ .ok .finished)
      (retired : after.accountant.retired = hub.accountant.retired)
      (jobs : after.ledger.job? id = hub.ledger.job? id) : Judged hub after id answer
  | finished {job : Job} (active : hub.accountant.retired.contains id = false)
      (gone : after.accountant.retired.contains id = true)
      (stored : after.ledger.job? id = .ok (some job)) (ended : job.state = .finished) :
      Judged hub after id (.ok .finished)

theorem judged_finishIfComplete (orderly : hub.Orderly) (id : String) (now : Instant) :
    Judged hub (hub.finishIfComplete id now).1 id (hub.finishIfComplete id now).2 := by
  have ends := finishing orderly.sound orderly.filed id now
  generalize (hub.finishIfComplete id now).1 = after at ends ⊢
  generalize (hub.finishIfComplete id now).2 = answer at ends ⊢
  cases ends with
  | ignored => exact .kept nofun rfl rfl
  | outstanding => exact .kept nofun rfl rfl
  | partly => exact .kept nofun rfl rfl
  | refused => exact .kept nofun rfl rfl
  | finished kept ended found enough restated closed =>
      apply Judged.finished (orderly.sound.active_of_kept kept) _ restated.is rfl
      simp [closed.retired]

/-- What was done to the tasks before does not matter. -/
theorem Judged.of_same {middle : Hub} {answer : Except CompletionError CompletionStatus}
    (judged : Judged middle after id answer)
    (retired : middle.accountant.retired = hub.accountant.retired)
    (jobs : middle.ledger.job? id = hub.ledger.job? id) : Judged hub after id answer := by
  cases judged with
  | kept unfinished same stored => exact .kept unfinished (same.trans retired) (stored.trans jobs)
  | finished active gone stored ended => exact .finished (retired ▸ active) gone stored ended

theorem judged_onCompletion (orderly : hub.Orderly) (completion : Completion) (now : Instant) :
    Judged hub (hub.onCompletion completion now).1 completion.job
      (hub.onCompletion completion now).2 := by
  cases kept : hub.accountant.account? completion.job with
  | none =>
      rw [onCompletion_of_gone orderly.free kept]
      exact .kept nofun rfl rfl
  | some account =>
      rcases onCompletion_of_kept orderly kept now with
        ⟨accountant, metrics, written, same, rewritten, noted, uncounted⟩
      have middle := (settled_of_noted orderly kept rewritten noted uncounted).touched.orderly
      rw [same]
      exact (judged_finishIfComplete middle completion.job now).of_same rewritten.retired rfl

theorem retired_recover (id : String) (records : List TaskRecord) (hub : Hub)
    (orderly : hub.Orderly) :
    (recover id records hub).1.accountant.retired = hub.accountant.retired := by
  induction records generalizing hub with
  | nil => rfl
  | cons record rest ih =>
      rw [recover]
      split
      · rfl
      · exact ih hub orderly
      · next execution found =>
        have next := settled_applyState orderly id record.task.id execution.measurements.taskState
        rw [ih _ next.touched.orderly, applyState]
        cases kept : hub.accountant.account? id with
        | none => rw [apply_of_gone orderly.sound kept]
        | some account =>
            rcases rewritten_apply orderly.sound kept record.task.id
              execution.measurements.taskState with ⟨_, rewritten, _⟩
            exact rewritten.retired

theorem judged_reconcile (orderly : hub.Orderly) (id : String) (now : Instant) :
    Judged hub (hub.reconcile id now).1 id (hub.reconcile id now).2 := by
  rw [reconcile, awaitAccount_of_free orderly.free]
  cases hub.accountant.account? id with
  | none => exact .kept (by rintro ⟨⟩) rfl rfl
  | some account =>
      have settled := settled_recover id account.outstanding hub orderly
      have retired := retired_recover id account.outstanding hub orderly
      have ledger := ledger_recover id account.outstanding hub
      dsimp only
      generalize recover id account.outstanding hub = result at settled retired ledger ⊢
      rcases result with ⟨middle, error | done⟩
      · exact .kept (by rintro ⟨⟩) retired (by rw [ledger])
      · apply (judged_finishIfComplete settled.touched.orderly id now).of_same retired
        exact congrArg (Ledger.job? · id) ledger

/-! ## Where a job stands -/

/-- A job is open and was never declared finished, or it was so once, and is retired and stored
as finished. -/
inductive Standing (job : Job) (hub : Hub) (journal : List Entry) : Prop where
  | opened (active : hub.accountant.retired.contains job.id = false)
      (never : (finishedJobs journal).count job.id = 0)
  | closed {last : Job} (gone : hub.accountant.retired.contains job.id = true)
      (once : (finishedJobs journal).count job.id = 1)
      (stored : hub.ledger.job? job.id = .ok (some last)) (ended : last.state = .finished)

theorem finishedNames_of_unfinished {answer : Except CompletionError CompletionStatus}
    (unfinished : answer ≠ .ok .finished) (id : String) : finishedNames id answer = [] := by
  rcases answer with error | status
  · rfl
  · cases status with
    | pending => rfl
    | ignored => rfl
    | finished => exact absurd rfl unfinished

/-- A step that says nothing of the job and leaves its state alone. -/
theorem Standing.quiet {noted : List Entry} (standing : Standing job hub journal)
    (silent : (finishedJobs noted).count job.id = 0)
    (retired : after.accountant.retired.contains job.id = hub.accountant.retired.contains job.id)
    (jobs : ∀ last, hub.ledger.job? job.id = .ok (some last) → last.state = .finished →
      ∃ next, after.ledger.job? job.id = .ok (some next) ∧ next.state = .finished) :
    Standing job after (journal ++ noted) := by
  have counts : (finishedJobs (journal ++ noted)).count job.id =
      (finishedJobs journal).count job.id := by
    rw [finishedJobs_append, List.count_append, silent, Nat.add_zero]
  cases standing with
  | opened active never => exact .opened (retired.trans active) (counts.trans never)
  | closed gone once stored ended =>
      rcases jobs _ stored ended with ⟨next, found, last⟩
      exact .closed (retired.trans gone) (counts.trans once) found last

/-- An answer that concerns the job. -/
theorem Standing.judged {noted : List Entry} {answer : Except CompletionError CompletionStatus}
    (standing : Standing job hub journal) (judged : Judged hub after job.id answer)
    (names : finishedJobs noted = finishedNames job.id answer) :
    Standing job after (journal ++ noted) := by
  cases judged with
  | kept unfinished retired jobs =>
      apply standing.quiet
      · rw [names, finishedNames_of_unfinished unfinished, List.count_nil]
      · rw [retired]
      · intro last found ended
        exact ⟨last, jobs.trans found, ended⟩
  | finished active gone stored ended =>
      cases standing with
      | closed retired _ _ _ =>
          rw [active] at retired
          cases retired
      | opened _ never =>
          apply Standing.closed gone _ stored ended
          rw [finishedJobs_append, List.count_append, names, never, finishedNames,
            List.count_singleton_self]

/-- Handing out finishes no job, and no finished job comes back. -/
theorem Standing.handed {names : List String} (standing : Standing job hub journal)
    (step : Handed hub after job.id names) :
    Standing job after (journal ++ names.map (.sent job.id)) := by
  apply standing.quiet
  · rw [finishedJobs_map_sent, List.count_nil]
  · rw [step.retired]
  · intro last found ended
    rcases step.job found with ⟨next, found, goes⟩
    exact ⟨next, found, goes.finished.2 ended⟩

theorem Standing.perform (standing : Standing job hub journal) (orderly : hub.Orderly) (call : Call)
    (path : call.OnPlan job) (now : Instant) :
    Standing job (call.perform now hub).1 (journal ++ (call.perform now hub).2) := by
  by_cases own : call.job? = some job.id
  · cases call with
    | dispatch id task =>
        cases own
        exact standing.handed (handed_dispatch orderly job.id task now)
    | dispatchJob id =>
        cases own
        exact standing.handed (handed_dispatchJob orderly job.id now)
    | startJob id =>
        cases own
        exact standing.handed (handed_startJob orderly job.id now)
    | stopJob id =>
        cases own
        exact standing.handed (handed_stopJob orderly job.id now)
    | report completion =>
        have judged := judged_onCompletion orderly completion now
        rw [Option.some.inj own] at judged
        apply standing.judged judged
        rw [← Option.some.inj own]
        exact finishedJobs_reported ..
    | reconcile id =>
        cases own
        exact standing.judged (judged_reconcile orderly job.id now) (finishedJobs_reconciled ..)
    | removeJob id => exact absurd (Option.some.inj own) path
    | record completion => cases own
    | takeTask node => cases own
    | closeNode node => cases own
  · have step := performed orderly call now
    rcases step.aside job.id own with ⟨retired, silent, _⟩
    have jobs := (step.apart job.id own).1
    exact standing.quiet silent retired fun last found ended => ⟨last, jobs.trans found, ended⟩

/-! ## Jobs that can be recovered -/

/-- What is known, in a run that makes the calls, of a job whose tasks are all heard of in it. -/
structure Recoverable (job : Job) (hub : Hub) (calls : List Call) (journal : List Entry) :
    Prop where
  /-- The plan is stored as it was, and what is accounted was planned. -/
  tracked : Tracked job hub calls
  agree : Journaled hub journal
  weighed : hub.Weighed
  standing : Standing job hub journal

/-- Where all tasks are heard of, it does not matter what is recorded. -/
theorem Tracked.record_of_heard (tracked : Tracked job hub calls)
    (heard : ∀ index < job.tasks.length, HeardOf calls job index) (completion : Completion)
    (now : Instant) : Tracked job (hub.record completion now).1 calls where
  orderly := (idle_record hub completion now).orderly tracked.orderly
  stored := by
    rw [((idle_record hub completion now).apart job.id nofun).1]
    exact tracked.stored
  accounted := by
    intro id record found
    rw [((idle_record hub completion now).apart job.id nofun).2] at found
    exact tracked.accounted id record found
  recorded := fun index _ _ there _ => heard index (List.getElem?_eq_some_iff.1 there).1

theorem Tracked.perform_of_heard (tracked : Tracked job hub calls)
    (heard : ∀ index < job.tasks.length, HeardOf calls job index) {call : Call} (mem : call ∈ calls)
    (path : call.OnPlan job) (now : Instant) : Tracked job (call.perform now hub).1 calls := by
  by_cases recording : ∃ completion, call = .record completion
  · obtain ⟨completion, rfl⟩ := recording
    exact tracked.record_of_heard heard completion now
  · have path : call.OnRecord job := by
      cases call with
      | dispatch id task => exact path
      | record completion => exact absurd ⟨completion, rfl⟩ recording
      | _ => trivial
    apply (tracked.perform call path now).mono
    exact List.append_subset.2 ⟨List.Subset.refl calls, by simpa using mem⟩

theorem Recoverable.perform (recoverable : Recoverable job hub calls journal)
    (heard : ∀ index < job.tasks.length, HeardOf calls job index) {call : Call} (mem : call ∈ calls)
    (path : call.OnPlan job) (now : Instant) :
    Recoverable job (call.perform now hub).1 calls (journal ++ (call.perform now hub).2) := by
  have orderly := recoverable.agree.orderly
  constructor
  · exact recoverable.tracked.perform_of_heard heard mem path now
  · exact recoverable.agree.performed (performed orderly call now)
  · exact recoverable.weighed.perform orderly call now
  · exact recoverable.standing.perform orderly call path now

theorem Recoverable.run (heard : ∀ index < job.tasks.length, HeardOf calls job index)
    (steps : List (Call × Instant)) (hub : Hub) (journal : List Entry)
    (recoverable : Recoverable job hub calls journal) (within : ∀ step ∈ steps, step.1 ∈ calls)
    (path : ∀ step ∈ steps, step.1.OnPlan job) :
    Recoverable job (run steps hub).1 calls (journal ++ (run steps hub).2) := by
  induction steps generalizing hub journal with
  | nil =>
      rw [Hub.run, List.append_nil]
      exact recoverable
  | cons step rest ih =>
      have next := recoverable.perform heard (within step List.mem_cons_self)
        (path step List.mem_cons_self) step.2
      rw [Hub.run, ← List.append_assoc]
      apply ih _ _ next
      · exact fun other mem => within other (List.mem_cons_of_mem _ mem)
      · exact fun other mem => path other (List.mem_cons_of_mem _ mem)

/-- A stored job of which nothing was handed out yet. -/
theorem recoverable_nil (fresh : hub.accountant = .empty) (filed : hub.ledger.Filed)
    (concluded : hub.ledger.Concluded) (stored : hub.ledger.job? job.id = .ok (some job))
    (heard : ∀ index < job.tasks.length, HeardOf calls job index) :
    Recoverable job hub calls [] where
  tracked :=
    { orderly := (journaled_nil fresh filed).orderly
      stored := ⟨job, stored, rfl, fun _ => heard⟩
      accounted := by
        rw [fresh]
        rintro id record ⟨⟩
      recorded := fun index _ _ there _ => heard index (List.getElem?_eq_some_iff.1 there).1 }
  agree := journaled_nil fresh filed
  weighed := ⟨fresh ▸ balanced_empty, concluded⟩
  standing := .opened (fresh ▸ rfl) rfl

end Hub

/-! ## What a job adds to the loads -/

namespace Accountant

variable {accountant after : Accountant} {job : String}

/-- How many tasks of a job on a node have not ended. -/
def share (accountant : Accountant) (job node : String) : Nat :=
  ((accountant.account? job).getD .empty).outstandingOn node

theorem share_of_gone (gone : accountant.account? job = none) (node : String) :
    accountant.share job node = 0 := by
  rw [share, gone]
  rfl

/-- Closing an account takes exactly what the job adds off the loads. -/
theorem load_add_share (sound : accountant.Sound) (later : after.Sound)
    (balanced : accountant.Balanced) (right : after.Balanced) (gone : after.account? job = none)
    (others : ∀ other, other ≠ job → after.account? other = accountant.account? other)
    (node : String) : after.load node + accountant.share job node = accountant.load node := by
  have rest : (after.without job).jobs = (accountant.without job).jobs := by
    apply SortedMap.ext_get?
    intro other
    rw [without, without, SortedMap.get?_erase, SortedMap.get?_erase]
    split
    · rfl
    · next differ => rw [← later.account?_eq, ← sound.account?_eq, others other differ]
  rw [right, balanced, outstandingOn_getD after job, outstandingOn_getD accountant job,
    ← later.account?_eq, ← sound.account?_eq, gone, outstandingOn_of_jobs_eq rest, share,
    Option.getD_none, JobAccount.outstandingOn_empty]
  omega

end Accountant

namespace Hub

variable {hub after : Hub} {job : Job} {id : String} {calls : List Call} {journal : List Entry}
  {now : Instant}

/-! ## Nothing happens to a retired job -/

theorem retired_perform (orderly : hub.Orderly) (gone : hub.accountant.retired.contains id = true)
    (call : Call) (now : Instant) :
    (call.perform now hub).1.accountant.retired.contains id = true := by
  have step := performed orderly call now
  by_cases own : call.job? = some id
  · rw [own] at step
    generalize (call.perform now hub).1 = after at step ⊢
    generalize (call.perform now hub).2 = noted at step
    cases step with
    | handed step =>
        rw [step.retired]
        exact gone
    | reported step => exact step.retired gone
    | reconciled step => exact step.retired gone
    | removed step => exact step.retired gone
  · exact (step.aside id own).1.trans gone

theorem retired_run (calls : List (Call × Instant)) (hub : Hub) (orderly : hub.Orderly)
    (gone : hub.accountant.retired.contains id = true) :
    (run calls hub).1.accountant.retired.contains id = true := by
  induction calls generalizing hub with
  | nil => exact gone
  | cons step rest ih =>
      rcases step with ⟨call, now⟩
      exact ih _ ((performed orderly call now).orderly orderly)
        (retired_perform orderly gone call now)

theorem account?_of_retired (orderly : hub.Orderly)
    (gone : hub.accountant.retired.contains id = true) : hub.accountant.account? id = none := by
  rw [orderly.sound.account?_eq]
  exact orderly.sound.apart gone

/-- A second look at a retired job changes nothing. -/
theorem reconcile_of_retired (orderly : hub.Orderly)
    (gone : hub.accountant.retired.contains id = true) (now : Instant) :
    hub.reconcile id now = (hub, .ok .ignored) := by
  rw [reconcile, awaitAccount_of_free orderly.free, account?_of_retired orderly gone]

/-! ## Every run -/

/-- What a second look owes to a job whose reports were all recorded: `after` and `answer` are what
comes of it. -/
structure Recovered (job : Job) (start hub : Hub) (journal : List Entry) (after : Hub)
    (answer : Except CompletionError CompletionStatus) : Prop where
  /-- It finishes the job unless that has been done. -/
  due : answer = .ok (if job.id ∈ finishedJobs journal then .ignored else .finished)
  stored : ∃ last, after.ledger.job? job.id = .ok (some last) ∧ last.tasks = job.tasks ∧
    last.state = .finished
  retired : after.accountant.retired.contains job.id = true
  /-- What the job added to the loads is gone, and nothing else. -/
  relieved : ∀ node, after.accountant.share job.id node = 0 ∧
    after.accountant.load node + hub.accountant.share job.id node = hub.accountant.load node
  /-- The load of a node is the number of its tasks that have not ended. -/
  loads : ∀ node, after.accountant.load node = after.accountant.outstandingOn node
  /-- In the whole run the job is declared finished once. -/
  once : (finishedJobs (journal ++ [.reconciled job.id answer])).count job.id = 1
  /-- Jobs are counted as often as they are declared finished. -/
  counted : after.metrics.jobsFinished = start.metrics.jobsFinished +
    UInt64.ofNat (finishedJobs (journal ++ [.reconciled job.id answer])).length
  /-- Whatever happens next, a further look at the job changes nothing. -/
  looks : ∀ later now, (run later after).1.reconcile job.id now =
    ((run later after).1, .ok .ignored)
  /-- Whatever happens next, a further report for the job is only counted. -/
  reports : ∀ later completion now, completion.job = job.id →
    (run later after).1.onCompletion completion now =
      ((run later after).1.count Metrics.eventIgnored, .ok .ignored)

/-- A job that was declared finished is closed. -/
theorem Standing.closed_of_mem (standing : Standing job hub journal)
    (mem : job.id ∈ finishedJobs journal) :
    hub.accountant.retired.contains job.id = true ∧ (finishedJobs journal).count job.id = 1 ∧
      ∃ last, hub.ledger.job? job.id = .ok (some last) ∧ last.state = .finished := by
  cases standing with
  | opened active never => exact absurd mem (List.count_eq_zero.1 never)
  | closed gone once stored ended => exact ⟨gone, once, _, stored, ended⟩

/-- A second look finishes a job that stands open. -/
theorem Recoverable.reconcile_opened (recoverable : Recoverable job hub calls journal)
    (planned : job.tasks ≠ [])
    (sent : ∀ index < job.tasks.length, (job.id, job.taskId index) ∈ sentTasks journal)
    (known : ∀ planned ∈ job.tasks, hub.ledger.Knows planned.resource job.id planned.kind)
    (active : hub.accountant.retired.contains job.id = false) (now : Instant) :
    (hub.reconcile job.id now).2 = .ok .finished := by
  refine (recoverable.tracked.reconcile_finishes planned ?_ ?_ now).1
  · intro index inside
    rcases recoverable.agree.kept job.id _ (sent index inside) with present | gone
    · exact present
    · rw [active] at gone
      cases gone
  · intro task mem
    rcases known task mem with ⟨execution, found⟩
    exact ⟨execution, found, recoverable.weighed.concluded found⟩

/-- A second look finishes the job, unless that has been done. -/
theorem Recoverable.answer_reconcile (recoverable : Recoverable job hub calls journal)
    (planned : job.tasks ≠ [])
    (sent : ∀ index < job.tasks.length, (job.id, job.taskId index) ∈ sentTasks journal)
    (known : ∀ planned ∈ job.tasks, hub.ledger.Knows planned.resource job.id planned.kind)
    (now : Instant) :
    (hub.reconcile job.id now).2 =
      .ok (if job.id ∈ finishedJobs journal then .ignored else .finished) := by
  cases recoverable.standing with
  | opened active never =>
      rw [if_neg (List.count_eq_zero.1 never)]
      exact recoverable.reconcile_opened planned sent known active now
  | closed gone once _ _ =>
      have mem : job.id ∈ finishedJobs journal := List.count_pos_iff.1 (by omega)
      rw [if_pos mem, reconcile_of_retired recoverable.agree.orderly gone now]

/-- A second look at a job all of whose tasks were handed out and are known recovers it. -/
theorem Recoverable.recovered {before : Hub} (recoverable : Recoverable job before calls journal)
    (heard : ∀ index < job.tasks.length, HeardOf calls job index)
    (asked : .reconcile job.id ∈ calls) (planned : job.tasks ≠ [])
    (sent : ∀ index < job.tasks.length, (job.id, job.taskId index) ∈ sentTasks journal)
    (known : ∀ planned ∈ job.tasks, before.ledger.Knows planned.resource job.id planned.kind)
    (metrics : before.metrics.jobsFinished =
      hub.metrics.jobsFinished + UInt64.ofNat (finishedJobs journal).length) (now : Instant) :
    Recovered job hub before journal (before.reconcile job.id now).1
      (before.reconcile job.id now).2 := by
  have due := recoverable.answer_reconcile planned sent known now
  have next : Recoverable job (before.reconcile job.id now).1 calls
      (journal ++ [.reconciled job.id (before.reconcile job.id now).2]) :=
    recoverable.perform heard asked trivial now
  have touched := (settled_reconcile recoverable.agree.orderly job.id now).touched
  have more : Performed before (before.reconcile job.id now).1 (some job.id)
      [.reconciled job.id (before.reconcile job.id now).2] :=
    performed recoverable.agree.orderly (.reconcile job.id) now
  have counted := (announced_performed more).2
  generalize (before.reconcile job.id now).1 = after at next touched counted ⊢
  generalize (before.reconcile job.id now).2 = answer at due next counted ⊢
  have declared : job.id ∈ finishedJobs (journal ++ [.reconciled job.id answer]) := by
    rw [finishedJobs_append, finishedJobs_reconciled, due, List.mem_append]
    split
    · next mem => exact .inl mem
    · exact .inr List.mem_cons_self
  rcases next.standing.closed_of_mem declared with ⟨gone, once, last, found, ended⟩
  have orderly := next.agree.orderly
  have closed := account?_of_retired orderly gone
  constructor
  · exact due
  · rcases next.tracked.stored with ⟨other, found', plan, _⟩
    rw [found] at found'
    cases found'
    exact ⟨last, found, plan, ended⟩
  · exact gone
  · intro node
    constructor
    · exact share_of_gone closed node
    · exact load_add_share recoverable.agree.orderly.sound orderly.sound
        recoverable.weighed.balanced next.weighed.balanced closed touched.accounts node
  · exact next.weighed.balanced
  · exact once
  · rw [counted, metrics, finishedJobs_append, List.length_append, UInt64.ofNat_add,
      UInt64.add_assoc]
  · intro later moment
    have gone := retired_run later after orderly gone
    exact reconcile_of_retired (orderly_run later after orderly) gone moment
  · intro later completion moment own
    have reached := orderly_run later after orderly
    have gone := account?_of_retired reached (retired_run later after orderly gone)
    exact onCompletion_of_gone reached.free (own ▸ gone) moment

/-- After any run in which every task of a job was handed out and a report on each was recorded, a
second look at the job recovers it, whichever reports came in. -/
theorem recovered_run (job : Job) (hub : Hub) (fresh : hub.accountant = .empty)
    (filed : hub.ledger.Filed) (concluded : hub.ledger.Concluded)
    (stored : hub.ledger.job? job.id = .ok (some job)) (planned : job.tasks ≠ [])
    (calls : List (Call × Instant)) (path : ∀ step ∈ calls, step.1.OnPlan job)
    (sent : ∀ index < job.tasks.length, (job.id, job.taskId index) ∈ sentTasks (run calls hub).2)
    (recorded : ∀ index < job.tasks.length, TakenDown calls hub job index) (now : Instant) :
    Recovered job hub (run calls hub).1 (run calls hub).2
      ((run calls hub).1.reconcile job.id now).1 ((run calls hub).1.reconcile job.id now).2 := by
  let all : List Call := .reconcile job.id :: calls.map Prod.fst
  have heard (index : Nat) (inside : index < job.tasks.length) : HeardOf all job index :=
    (recorded index inside).heard.mono (List.subset_cons_self _ _)
  have start : Recoverable job hub all [] := recoverable_nil fresh filed concluded stored heard
  have before : Recoverable job (run calls hub).1 all (run calls hub).2 :=
    start.run heard calls hub [] (fun _ mem => List.mem_cons_of_mem _ (List.mem_map_of_mem mem))
      path
  have known (task : PlannedTask) (mem : task ∈ job.tasks) :
      (run calls hub).1.ledger.Knows task.resource job.id task.kind := by
    rcases List.getElem?_of_mem mem with ⟨index, there⟩
    exact (recorded index (List.getElem?_eq_some_iff.1 there).1).knows start.agree.orderly there
  have metrics := (announced_run calls hub start.agree.orderly).2
  exact before.recovered heard List.mem_cons_self planned sent known metrics now

/-! ## A lost report -/

/-- The report on the second link. -/
def secondChecked : Completion := { linkChecked 1 with resource := "second" }

/-- Both reports are recorded, but only that on the second link comes in, and twice. -/
def firstLost : List (Call × Instant) :=
  [(.startJob twoLinks.id, .epoch), (.record secondChecked, .epoch),
    (.record (linkChecked 0), .epoch), (.report secondChecked, .epoch),
    (.report secondChecked, .epoch)]

theorem pairHub_orderly : pairHub.Orderly := ⟨sound_empty, pairHub_filed, rfl⟩

/-- The start hands out both tasks. -/
theorem pairHub_sent {index : Nat} (inside : index < twoLinks.tasks.length) :
    twoLinks.taskId index ∈ pairHub.startJobSent twoLinks.id .epoch := by
  have builds (index : Nat) (inside : index < twoLinks.tasks.length) :
      ∃ task, pairHub.buildTask twoLinks index = .ok task := by
    have there := List.getElem?_eq_getElem inside
    have kind : ¬ twoLinks.tasks[index].kind = .conditionalDownload := by
      have checks : ∀ planned ∈ twoLinks.tasks, planned.kind = .checkLink := by decide
      rw [checks _ (List.getElem_mem inside)]
      decide
    exact ⟨_, buildTask_eq_ok_iff.2 ⟨_, none, ∅, there, resource?_of_bare rfl _, if_neg kind, rfl⟩⟩
  rcases startJob_of_staffed pairHub_orderly ⟨by decide, by decide⟩ pairHub_stored (by decide) rfl
    builds .epoch with ⟨count, done⟩
  rw [(handedOut_startJob pairHub_orderly pairHub_stored done).names]
  have fresh : pairHub.accountant.hasTask twoLinks.id (twoLinks.taskId index) = false := by
    rw [hasTask_eq_false_iff]
    rfl
  apply List.mem_map_of_mem
  exact List.mem_filter.2 ⟨List.mem_range.2 inside, by rw [fresh]; rfl⟩

theorem firstLost_sent :
    ∀ index < twoLinks.tasks.length,
      (twoLinks.id, twoLinks.taskId index) ∈ sentTasks (run firstLost pairHub).2 := by
  -- stated for any hub, so that no state of this one is computed
  have journal (hub : Hub) : ∃ later, (run firstLost hub).2 =
      (hub.startJobSent twoLinks.id .epoch).map (.sent twoLinks.id) ++ later := ⟨_, rfl⟩
  rcases journal pairHub with ⟨later, journal⟩
  intro index inside
  rw [journal, sentTasks_append, sentTasks_map_sent]
  exact List.mem_append_left _ (List.mem_map_of_mem (pairHub_sent inside))

/-- A report on a stored job is recorded, and the job stays stored. -/
theorem record_of_readable {last : Job} (readable : hub.ledger.Readable) (completion : Completion)
    (found : hub.ledger.job? completion.job = .ok (some last)) (now : Instant) :
    (∃ recording, (hub.record completion now).2 = .ok recording) ∧
      (hub.record completion now).1.ledger.Readable ∧
      (hub.record completion now).1.ledger.job? completion.job = .ok (some last) := by
  rw [answer_record, ledger_record, job?, jobs_record]
  exact ⟨Ledger.record_of_readable readable found now, readable.record completion now, found⟩

/-- After the start both reports are recorded, the one after the other. -/
theorem firstLost_taken :
    ∀ index < twoLinks.tasks.length, TakenDown firstLost pairHub twoLinks index := by
  -- stated for any hub, so that no state of this one is computed
  have started (hub : Hub) : (run [(.startJob twoLinks.id, .epoch)] hub).1 =
      (hub.startJob twoLinks.id .epoch).1 := rfl
  have noted (hub : Hub) :
      (run [(.startJob twoLinks.id, .epoch), (.record secondChecked, .epoch)] hub).1 =
        ((hub.startJob twoLinks.id .epoch).1.record secondChecked .epoch).1 := rfl
  have step := handed_startJob pairHub_orderly twoLinks.id .epoch
  rcases step.job pairHub_stored with ⟨last, found, _⟩
  have bare : pairHub.ledger.Readable := readable_of_bare rfl rfl rfl
  have readable := bare.of_same step.steady.resources step.steady.executions step.steady.latest
  rcases record_of_readable readable secondChecked found .epoch with
    ⟨⟨second, done⟩, readable, found⟩
  rcases record_of_readable readable (linkChecked 0) found .epoch with ⟨⟨first, done'⟩, _, _⟩
  rw [← started] at done
  rw [← noted] at done'
  intro index inside
  have cases : index = 0 ∨ index = 1 := by
    have size : twoLinks.tasks.length = 2 := rfl
    omega
  rcases cases with rfl | rfl
  · exact ⟨_, linkChecked 0, .epoch, _, first, rfl, rfl,
      ⟨rfl, ⟨.checkLink, "first", []⟩, rfl, rfl, rfl⟩, done'⟩
  · exact ⟨_, secondChecked, .epoch, _, second, rfl, rfl,
      ⟨rfl, ⟨.checkLink, "second", []⟩, rfl, rfl, rfl⟩, done⟩

/-- The report on the first link was lost, and the job is finished nevertheless. -/
theorem recovered_firstLost :
    pairHub.accountant = .empty ∧ pairHub.ledger.Filed ∧ pairHub.ledger.Concluded ∧
      pairHub.ledger.job? twoLinks.id = .ok (some twoLinks) ∧ twoLinks.tasks ≠ [] ∧
      (∀ step ∈ firstLost, step.1.OnPlan twoLinks) ∧
      (∀ index < twoLinks.tasks.length,
        (twoLinks.id, twoLinks.taskId index) ∈ sentTasks (run firstLost pairHub).2) ∧
      (∀ index < twoLinks.tasks.length, TakenDown firstLost pairHub twoLinks index) ∧
      Recovered twoLinks pairHub (run firstLost pairHub).1 (run firstLost pairHub).2
        ((run firstLost pairHub).1.reconcile twoLinks.id .epoch).1
        ((run firstLost pairHub).1.reconcile twoLinks.id .epoch).2 := by
  have concluded : pairHub.ledger.Concluded := concluded_of_bare rfl
  have path : ∀ step ∈ firstLost, step.1.OnPlan twoLinks := by simp [firstLost, Call.OnPlan]
  exact ⟨rfl, pairHub_filed, concluded, pairHub_stored, by decide, path, firstLost_sent,
    firstLost_taken, recovered_run twoLinks pairHub rfl pairHub_filed concluded pairHub_stored
      (by decide) firstLost path firstLost_sent firstLost_taken .epoch⟩

end Hub

end MediaHarvest
