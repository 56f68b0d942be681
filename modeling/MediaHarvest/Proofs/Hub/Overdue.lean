import MediaHarvest.Proofs.Hub.Incidents
import MediaHarvest.Proofs.Hub.Lifecycle
import MediaHarvest.Proofs.Hub.Settling
import MediaHarvest.Proofs.Hub.Tally

/-!
# Jobs that are overdue

A job is overdue when all its tasks have ended, but its record could not be read when it was due to
be finished.  Whatever happens meanwhile, it stays so until it is asked for while its record can be
read, and is finished then.  Nothing that the hub does in the meantime depends on the delay.
-/

namespace MediaHarvest

open Ledger Accountant

/-- A call keeps to the tasks of a job: no other ones are handed out for it, and it is not
removed. -/
def Call.KeepsTo (job : Job) : Call → Prop
  | .dispatch id task => id = job.id → task.id ∈ job.taskIds
  | .removeJob id => id ≠ job.id
  | _ => True

/-- An incident keeps to the tasks of a job: no job is put in the place of another one, and whenever
the record of this one can be read it has the same tasks. -/
def Incident.KeepsTo (job : Job) : Incident → Prop
  | .call made _ => made.KeepsTo job
  | .overwrite id bytes => (Incident.overwrite id bytes).Proper ∧
      (id = job.id → ∀ text last, bytes = some text → readValue Job.codec text = .ok last →
        last.tasks = job.tasks)

theorem Incident.KeepsTo.proper {job : Job} {incident : Incident} (keeps : incident.KeepsTo job) :
    incident.Proper := by
  cases incident with
  | call made now => trivial
  | overwrite id bytes => exact keeps.1

/-- Jobs of the same name with the same tasks name these alike. -/
theorem Job.taskIds_congr {job other : Job} (named : other.id = job.id)
    (plan : other.tasks = job.tasks) : other.taskIds = job.taskIds := by
  rw [Job.taskIds, Job.taskIds, plan]
  exact List.map_congr_left fun index _ => by rw [Job.taskId, Job.taskId, named]

namespace Hub

variable {hub : Hub} {job record : Job} {account : JobAccount} {id : String} {task : Task}
  {announced : List String} {now : Instant}

/-! ## The question whether an overdue job is finished -/

/-- What becomes of a job all of whose tasks have ended: it is finished, if its record can be
read. -/
def conclude (hub : Hub) (id : String) (now : Instant) :
    Hub × Except CompletionError CompletionStatus :=
  match hub.ledger.job id with
  | .error error => (hub, .error (.ledger error))
  | .ok job => (hub.settle (job.withState .finished now) (hub.announced ++ [id]), .ok .finished)

theorem conclude_of_found {last : Job} (found : hub.ledger.job id = .ok last) (now : Instant) :
    hub.conclude id now =
      (hub.settle (last.withState .finished now) (hub.announced ++ [id]), .ok .finished) := by
  rw [conclude, found]

theorem conclude_of_lost (lost : hub.ledger.Lost id) (now : Instant) :
    ∃ error, hub.ledger.job id = .error error ∧
      hub.conclude id now = (hub, .error (.ledger error)) := by
  obtain ⟨error, refused⟩ := lost.refused
  exact ⟨error, refused, by rw [conclude, refused]⟩

/-- If it does not finish the job, nothing has changed. -/
theorem conclude_of_silent (silent : id ∉ finishedNames id (hub.conclude id now).2) :
    (hub.conclude id now).1 = hub ∧ finishedNames id (hub.conclude id now).2 = [] := by
  rw [conclude] at silent ⊢
  cases read : hub.ledger.job id with
  | error error => exact ⟨rfl, rfl⟩
  | ok last =>
      rw [read] at silent
      exact absurd List.mem_cons_self silent

/-- All tasks of a job are accounted and have ended, and whenever its record can be read it has
these tasks. -/
structure Overdue (job : Job) (account : JobAccount) (hub : Hub) : Prop where
  /-- The hub is in order. -/
  orderly : hub.Orderly
  kept : hub.accountant.account? job.id = some account
  ended : account.allTerminal = true
  accounted : ∀ task ∈ job.taskIds, account.tasks.contains task = true
  plan : ∀ last, hub.ledger.job? job.id = .ok (some last) → last.tasks = job.tasks

namespace Overdue

theorem finishIfComplete (overdue : Overdue job account hub) (now : Instant) :
    hub.finishIfComplete job.id now = hub.conclude job.id now := by
  rw [Hub.finishIfComplete, conclude, overdue.kept]
  dsimp only
  rw [overdue.ended, plannedCount, Ledger.job]
  cases read : hub.ledger.job? job.id with
  | error error => rfl
  | ok answer =>
      cases answer with
      | none =>
          have missing : hub.ledger.job job.id = .error (.jobNotFound job.id) := by
            rw [Ledger.job, read]
            rfl
          rw [finish, setJobState, missing]
          simp only [ok_bind, error_bind, pure_eq_ok, Nat.lt_irrefl, if_false, Bool.not_true,
            Bool.false_eq_true]
          rfl
      | some last =>
          have stored : hub.ledger.job job.id = .ok last := job_eq_ok_iff.2 read
          have named : last.id = job.id := overdue.orderly.filed read
          have enough : ¬ account.tasks.size < last.tasks.length := by
            rw [overdue.plan last read]
            exact Nat.not_lt_of_le (JobAccount.planned_le_size overdue.accounted)
          rw [finish, setJobState, stored, retire_of_ended overdue.kept overdue.ended]
          simp only [ok_bind, pure_eq_ok, Bool.not_true, Bool.false_eq_true, if_false,
            if_neg enough]
          rw [settle, close, ← named]
          rfl

/-- Nothing changes about an overdue job when reports are counted. -/
theorem count (overdue : Overdue job account hub) (change : Metrics → Metrics) :
    Overdue job account (hub.count change) :=
  ⟨⟨overdue.orderly.sound, overdue.orderly.filed, overdue.orderly.free⟩, overdue.kept,
    overdue.ended, overdue.accounted, overdue.plan⟩

/-- Any report for an overdue job asks whether it is finished. -/
theorem onCompletion (overdue : Overdue job account hub) {completion : Completion}
    (own : completion.job = job.id) (now : Instant) :
    hub.onCompletion completion now = (hub.count Metrics.eventIgnored).conclude job.id now := by
  have stale (record : TaskRecord) (found : account.tasks.get? completion.task = some record) :
      record.state.isTerminal = true :=
    JobAccount.allTerminal_iff.1 overdue.ended _ record found
  rw [onCompletion_of_stale overdue.orderly.free (own ▸ overdue.kept) stale, own]
  exact (overdue.count Metrics.eventIgnored).finishIfComplete now

/-- So does a second look. -/
theorem reconcile (overdue : Overdue job account hub) (now : Instant) :
    hub.reconcile job.id now = hub.conclude job.id now := by
  rw [Hub.reconcile, awaitAccount_of_free overdue.orderly.free, overdue.kept]
  dsimp only
  rw [JobAccount.outstanding_of_ended overdue.ended]
  exact overdue.finishIfComplete now

end Overdue

/-! ## Handing out an overdue job -/

/-- A task that is accounted is not handed out. -/
theorem dispatch_of_accounted (present : hub.accountant.hasTask id task.id = true)
    (now : Instant) :
    (hub.dispatch id task now).1 = hub ∧ hub.dispatchSent id task now = [] := by
  rw [dispatchSent, dispatch]
  cases hub.findJob id with
  | error error => exact ⟨rfl, rfl⟩
  | ok stored =>
      dsimp only
      rw [present]
      cases stored.state.acceptsDispatch <;> exact ⟨rfl, rfl⟩

theorem dispatchTasks_of_accounted (stored : Job) (now : Instant) (indices : List Nat) (sent : Nat)
    (present : ∀ index ∈ indices, hub.accountant.hasTask id (stored.taskId index) = true) :
    (dispatchTasks stored id now indices sent hub).1 = hub ∧
      dispatchTasksSent stored id now indices hub = [] := by
  induction indices with
  | nil => exact ⟨rfl, rfl⟩
  | cons index rest ih =>
      have rest := ih fun other mem => present other (List.mem_cons_of_mem _ mem)
      rw [dispatchTasks, dispatchTasksSent_cons]
      cases built : hub.buildTask stored index with
      | error error => exact ⟨rfl, rfl⟩
      | ok task =>
          have here : hub.accountant.hasTask id task.id = true := by
            rw [buildTask_id built]
            exact present index List.mem_cons_self
          obtain ⟨same, none⟩ := dispatch_of_accounted here now
          dsimp only
          rw [none, List.nil_append]
          rw [dispatchSent] at none
          generalize hub.dispatch id task now = result at same none ⊢
          obtain ⟨after, answer⟩ := result
          dsimp only at same none
          subst same
          cases answer with
          | error error => exact ⟨rfl, rfl⟩
          | ok dispatched =>
              cases dispatched with
              | sent => cases none
              | alreadyAssigned => exact rest
              | held => exact ⟨rfl, rfl⟩

/-- Only the record of a job is written, if anything. -/
structure Rerecorded (hub after : Hub) (id : String) : Prop where
  /-- Nothing but the ledger has changed. -/
  same : after = { hub with ledger := after.ledger }
  /-- What was written does not matter once the job is written again. -/
  jobs : ∀ record : Job, record.id = id → after.ledger.putJob record = hub.ledger.putJob record

theorem Rerecorded.refl (hub : Hub) (id : String) : Rerecorded hub hub id :=
  ⟨rfl, fun _ _ => rfl⟩

theorem rerecorded_overwrite (hub : Hub) (id : String) (bytes : Option Bytes) :
    Rerecorded hub { hub with ledger := hub.ledger.overwrite id bytes } id := by
  refine ⟨rfl, fun record named => ?_⟩
  subst named
  exact putJob_overwrite hub.ledger record bytes

theorem rerecorded_moveJob (filed : hub.ledger.Filed) (id : String) (sources : List JobState)
    (target : JobState) (now : Instant) :
    Rerecorded hub (hub.moveJob id sources target now).1 id := by
  rw [moveJob]
  split
  · next ledger moved done =>
    refine ⟨rfl, fun record named => ?_⟩
    subst named
    exact putJob_of_moved filed done
  · exact .refl hub id
  · exact .refl hub id

/-- What is written of the job before it is settled does not matter. -/
theorem Rerecorded.settle {after : Hub} (rerecorded : Rerecorded hub after id)
    (named : record.id = id) (announced : List String) :
    after.settle record announced = hub.settle record announced := by
  rw [Hub.settle, Hub.settle, rerecorded.jobs record named, rerecorded.same]

namespace Overdue

variable {after : Hub}

theorem hasTask (overdue : Overdue job account hub) {name : String} (planned : name ∈ job.taskIds) :
    hub.accountant.hasTask job.id name = true := by
  rw [Accountant.hasTask, task?_of_kept overdue.kept]
  exact overdue.accounted name planned

/-- A job stays overdue when its record is written. -/
theorem rerecorded (overdue : Overdue job account hub) (rerecorded : Rerecorded hub after job.id)
    (filed : after.ledger.Filed)
    (plan : ∀ last, after.ledger.job? job.id = .ok (some last) → last.tasks = job.tasks) :
    Overdue job account after := by
  have same : after.accountant = hub.accountant := by rw [rerecorded.same]
  refine ⟨⟨?_, filed, ?_⟩, ?_, overdue.ended, overdue.accounted, plan⟩
  · rw [same]
    exact overdue.orderly.sound
  · rw [same]
    exact overdue.orderly.free
  · rw [same]
    exact overdue.kept

theorem moveJob (overdue : Overdue job account hub) (sources : List JobState) (target : JobState)
    (now : Instant) : Overdue job account (hub.moveJob job.id sources target now).1 := by
  have written := rerecorded_moveJob overdue.orderly.filed job.id sources target now
  rcases moving overdue.orderly.filed job.id sources target now with
    ⟨error, refused⟩ | ⟨stored, ledger, moves, restated⟩
  · rw [refused]
    exact overdue
  · rw [moves] at written ⊢
    refine overdue.rerecorded written restated.filed fun last found => ?_
    have found : Except.ok (some (moved stored sources target now)) = .ok (some last) :=
      restated.is.symm.trans found
    cases found
    have before := overdue.plan stored restated.was
    rcases moved_eq stored sources target now with same | same
    · rw [same, before]
    · rw [same]
      exact before

theorem dispatchJob (overdue : Overdue job account hub) (now : Instant) :
    (hub.dispatchJob job.id now).1 = hub ∧ hub.dispatchJobSent job.id now = [] := by
  rw [Hub.dispatchJob, dispatchJobSent_eq]
  cases found : hub.findJob job.id with
  | error error => exact ⟨rfl, rfl⟩
  | ok stored =>
      have read := findJob_eq_ok_iff.1 found
      have names := Job.taskIds_congr (overdue.orderly.filed read) (overdue.plan stored read)
      refine dispatchTasks_of_accounted stored now _ 0 fun index mem => overdue.hasTask ?_
      rw [← names]
      exact Job.mem_taskIds.2 ⟨index, List.mem_range.1 mem, rfl⟩

/-- Starting an overdue job does no more than to move it. -/
theorem startJob (overdue : Overdue job account hub) (now : Instant) :
    (hub.startJob job.id now).1 = (hub.moveJob job.id [.ready, .running, .pause] .resume now).1 ∧
      hub.startJobSent job.id now = [] := by
  have next := overdue.moveJob [.ready, .running, .pause] .resume now
  rw [Hub.startJob, startJobSent_eq]
  generalize hub.moveJob job.id [.ready, .running, .pause] .resume now = result at next ⊢
  obtain ⟨after, answer⟩ := result
  cases answer with
  | error error => exact ⟨rfl, rfl⟩
  | ok stored =>
      dsimp only
      split
      · exact ⟨rfl, rfl⟩
      · exact next.dispatchJob now

end Overdue

theorem stopJob_eq (hub : Hub) (id : String) (now : Instant) :
    (hub.stopJob id now).1 = (hub.moveJob id [.ready, .running, .resume] .pause now).1 := by
  rw [stopJob]
  split
  · next moves => rw [moves]
  · next moves => rw [moves]

/-! ## What becomes of an overdue job -/

variable {after : Hub} {noted : List Entry}

/-- An overdue job is still overdue, or it was declared finished once and is retired. -/
inductive Overcome (job : Job) (account : JobAccount) (after : Hub) (noted : List Entry) :
    Prop where
  | waits (silent : (finishedJobs noted).count job.id = 0) (overdue : Overdue job account after)
  | done (said : (finishedJobs noted).count job.id = 1)
      (gone : after.accountant.retired.contains job.id = true)

/-- What else is noted does not matter. -/
theorem Overcome.of_count {others : List Entry} (overcome : Overcome job account after noted)
    (counts : (finishedJobs others).count job.id = (finishedJobs noted).count job.id) :
    Overcome job account after others := by
  cases overcome with
  | waits silent overdue => exact .waits (counts.trans silent) overdue
  | done said gone => exact .done (counts.trans said) gone

namespace Overdue

/-- A call that may touch another job only leaves the job overdue. -/
theorem apart (overdue : Overdue job account hub) {subject : Option String}
    (step : Performed hub after subject noted) (differ : subject ≠ some job.id) :
    Overcome job account after noted := by
  refine .waits (step.aside job.id differ).2.1 ⟨step.orderly overdue.orderly, ?_, overdue.ended,
    overdue.accounted, ?_⟩
  · rw [step.account? job.id differ]
    exact overdue.kept
  · rw [(step.apart job.id differ).1]
    exact overdue.plan

theorem overcome_conclude (overdue : Overdue job account hub) (now : Instant)
    (names : finishedJobs noted = finishedNames job.id (hub.conclude job.id now).2) :
    Overcome job account (hub.conclude job.id now).1 noted := by
  rw [conclude] at names ⊢
  cases read : hub.ledger.job job.id with
  | error error =>
      rw [read] at names
      exact .waits (by rw [names]; rfl) overdue
  | ok last =>
      have named : last.id = job.id := overdue.orderly.filed (job_eq_ok_iff.1 read)
      rw [read] at names
      refine .done (by rw [names, finishedNames, List.count_singleton_self]) ?_
      have gone : (hub.accountant.close last.id).retired.contains job.id = true := by
        rw [contains_retired_close, decide_eq_true named.symm, Bool.true_or]
      exact gone

/-- A call for the job leaves it overdue, or finishes it. -/
theorem overcome_own (overdue : Overdue job account hub) {call : Call} (keeps : call.KeepsTo job)
    (own : call.job? = some job.id) (now : Instant) :
    Overcome job account (call.perform now hub).1 (call.perform now hub).2 := by
  cases call with
  | dispatch id task =>
      cases own
      have stays := dispatch_of_accounted (overdue.hasTask (keeps rfl)) now
      rw [Call.perform, stays.1, stays.2]
      exact .waits rfl overdue
  | dispatchJob id =>
      cases own
      have stays := overdue.dispatchJob now
      rw [Call.perform, stays.1, stays.2]
      exact .waits rfl overdue
  | startJob id =>
      cases own
      have stays := overdue.startJob now
      rw [Call.perform, stays.1, stays.2]
      exact .waits rfl (overdue.moveJob ..)
  | stopJob id =>
      cases own
      rw [Call.perform, stopJob_eq]
      exact .waits rfl (overdue.moveJob ..)
  | report completion =>
      have own : completion.job = job.id := Option.some.inj own
      rw [Call.perform, overdue.onCompletion own]
      refine (overdue.count Metrics.eventIgnored).overcome_conclude now ?_
      rw [finishedJobs_reported, own]
  | reconcile id =>
      cases own
      rw [Call.perform, overdue.reconcile]
      exact overdue.overcome_conclude now (finishedJobs_reconciled ..)
  | record completion => cases own
  | removeJob id => exact absurd (Option.some.inj own) keeps
  | takeTask node => cases own
  | closeNode node => cases own

theorem happen (overdue : Overdue job account hub) {incident : Incident}
    (keeps : incident.KeepsTo job) :
    Overcome job account (incident.happen hub).1 (incident.happen hub).2 := by
  cases incident with
  | call call now =>
      by_cases own : call.job? = some job.id
      · exact overdue.overcome_own keeps own now
      · exact overdue.apart (performed overdue.orderly call now) own
  | overwrite id bytes =>
      refine .waits rfl ⟨⟨overdue.orderly.sound, overdue.orderly.filed.overwrite keeps.1,
        overdue.orderly.free⟩, overdue.kept, overdue.ended, overdue.accounted, ?_⟩
      intro last found
      by_cases own : id = job.id
      · subst own
        obtain ⟨text, put, read⟩ := job?_overwrite_eq_ok_iff.1 found
        exact keeps.2 rfl text last put read
      · have same : (hub.ledger.overwrite id bytes).job? job.id = hub.ledger.job? job.id :=
          job?_overwrite_of_ne (Ne.symm own) ..
        exact overdue.plan last (same.symm.trans found)

/-- Whatever happens, an overdue job stays so until it is finished, and that once. -/
theorem undergo (incidents : List Incident) (hub : Hub) (overdue : Overdue job account hub)
    (keeps : ∀ incident ∈ incidents, incident.KeepsTo job) :
    Overcome job account (Hub.undergo incidents hub).1 (Hub.undergo incidents hub).2 := by
  induction incidents generalizing hub with
  | nil => exact .waits rfl overdue
  | cons incident rest ih =>
      have others : ∀ incident ∈ rest, incident.KeepsTo job := fun other mem =>
        keeps other (List.mem_cons_of_mem _ mem)
      have counts : (finishedJobs (Hub.undergo (incident :: rest) hub).2).count job.id =
          (finishedJobs (incident.happen hub).2).count job.id +
            (finishedJobs (Hub.undergo rest (incident.happen hub).1).2).count job.id := by
        rw [Hub.undergo, finishedJobs_append, List.count_append]
      cases overdue.happen (keeps incident List.mem_cons_self) with
      | waits silent next =>
          rw [silent, Nat.zero_add] at counts
          exact (ih _ next others).of_count counts
      | done said gone =>
          have proper := (keeps incident List.mem_cons_self).proper
          have next := orderly_happen overdue.orderly proper
          have named := fun other mem => (others other mem).proper
          cases declared_undergo rest _ next named job.id with
          | not silent stays => exact .done (by rw [counts, said, silent]) (stays gone)
          | once active =>
              rw [gone] at active
              cases active

end Overdue

end Hub

end MediaHarvest
