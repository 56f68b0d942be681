import MediaHarvest.Proofs.Accounting.Closing
import MediaHarvest.Proofs.Hub.Loads
import MediaHarvest.Proofs.Ledger.Overwriting

/-!
# Finishing a job early or late

`Hub.settle` is all that finishing a job changes, once its tasks have ended.  No call that concerns
other jobs, or none, tells whether that was done before it or is done after it: it gives the same
answers, and the changes add up.  So a job that is finished late is finished as if it had been
finished in time.
-/

namespace MediaHarvest.Hub

open Ledger Accountant

/-- The hub once a job was finished: `record` is stored for it, and `announced` are the jobs that
were announced. -/
def settle (hub : Hub) (record : Job) (announced : List String) : Hub :=
  { hub with
    ledger := hub.ledger.putJob record
    accountant := hub.accountant.close record.id
    metrics := hub.metrics.jobFinished
    announced := announced }

variable {hub : Hub} {record : Job} {announced : List String} {id : String} {now : Instant}

/-! ## What settling leaves alone -/

theorem awaitAccount_settle (differ : id ≠ record.id) (hub : Hub) :
    (hub.settle record announced).awaitAccount id =
      ((hub.awaitAccount id).1.settle record announced, (hub.awaitAccount id).2) := by
  have held : (hub.settle record announced).accountant.isHeld id = hub.accountant.isHeld id := rfl
  rw [awaitAccount, awaitAccount, held]
  split
  · rfl
  · have same : (hub.settle record announced).accountant.account? id =
        hub.accountant.account? id := account?_close_of_ne differ hub.accountant
    rw [same]

theorem applyState_settle (differ : id ≠ record.id) (hub : Hub) (task : String)
    (state : TaskState) :
    (hub.settle record announced).applyState id task state =
      ((hub.applyState id task state).1.settle record announced,
        (hub.applyState id task state).2) := by
  have same : (hub.settle record announced).accountant.apply id task state =
      ((hub.accountant.apply id task state).1.close record.id,
        (hub.accountant.apply id task state).2) := apply_close differ ..
  rw [applyState, applyState, same]
  rfl

/-- What was recorded of another job is noted alike. -/
theorem recover_settle (differ : id ≠ record.id) (records : List TaskRecord) (hub : Hub) :
    recover id records (hub.settle record announced) =
      ((recover id records hub).1.settle record announced, (recover id records hub).2) := by
  induction records generalizing hub with
  | nil => rfl
  | cons entry rest ih =>
      have known : (hub.settle record announced).ledger.execution? entry.task.resource id
          entry.task.kind = hub.ledger.execution? entry.task.resource id entry.task.kind := rfl
      rw [recover, recover, known]
      split
      · rfl
      · exact ih hub
      · rw [applyState_settle differ]
        exact ih _

theorem buildTask_settle (hub : Hub) (job : Job) (index : Nat) :
    (hub.settle record announced).buildTask job index = hub.buildTask job index := rfl

/-- The loads are what they were, so the same node is picked. -/
theorem pickNode_settle (hub : Hub) :
    (hub.settle record announced).pickNode = hub.pickNode := rfl

theorem takeTask_settle (hub : Hub) (node : Nat) :
    ((hub.settle record announced).takeTask node).2 =
      (hub.takeTask node).2.settle record announced := by
  have nodes : (hub.settle record announced).nodes = hub.nodes := rfl
  rw [takeTask, takeTask, nodes]
  split <;> rfl

theorem closeNode_settle (hub : Hub) (node : Nat) :
    (hub.settle record announced).closeNode node =
      (hub.closeNode node).settle record announced := by
  have nodes : (hub.settle record announced).nodes = hub.nodes := rfl
  rw [closeNode, closeNode, nodes]
  split <;> rfl

theorem deliver_settle (differ : id ≠ record.id) (hub : Hub) (number : UInt64) (task : Task)
    (index : Nat) (node : Node) (now : Instant) :
    (hub.settle record announced).deliver number id task index node now =
      ((hub.deliver number id task index node now).1.settle record announced,
        (hub.deliver number id task index node now).2) := by
  have withdrawn : (hub.settle record announced).accountant.withdraw id task.id =
      (hub.accountant.withdraw id task.id).close record.id := withdraw_close differ ..
  have backlog : (hub.settle record announced).backlog = hub.backlog := rfl
  rw [deliver, deliver]
  split
  · rfl
  · dsimp only
    rw [withdrawn, backlog]
    split <;> rfl

/-! ## What concerns the records of jobs -/

section Apart

variable (differ : id ≠ record.id) (whole : record.limits.Whole)
include differ whole

theorem findJob_settle (hub : Hub) :
    (hub.settle record announced).findJob id = hub.findJob id := by
  have read : (hub.settle record announced).ledger.job? id = hub.ledger.job? id :=
    job?_putJob_of_ne differ whole hub.ledger
  rw [findJob, findJob, read]

/-- Another job is moved alike. -/
theorem moveJob_settle (filed : hub.ledger.Filed) (sources : List JobState) (target : JobState)
    (now : Instant) :
    (hub.settle record announced).moveJob id sources target now =
      ((hub.moveJob id sources target now).1.settle record announced,
        (hub.moveJob id sources target now).2) := by
  have moves : (hub.settle record announced).ledger.moveJob id sources target now =
      (hub.ledger.moveJob id sources target now).map fun moved =>
        (moved.1.putJob record, moved.2) := moveJob_putJob differ whole filed sources target now
  rw [moveJob, moveJob, moves]
  cases hub.ledger.moveJob id sources target now with
  | ok result => rfl
  | error error => cases error <;> rfl

theorem begin_settle (filed : hub.ledger.Filed) (job : Job) (now : Instant) :
    (hub.settle record announced).begin job id now =
      ((hub.begin job id now).1.settle record announced, (hub.begin job id now).2) := by
  rw [begin, begin, moveJob_settle differ whole filed]
  generalize hub.moveJob id [.ready, .resume] .running now = result
  obtain ⟨after, answer⟩ := result
  cases job.state with
  | ready => cases answer <;> rfl
  | resume => cases answer <;> rfl
  | running => rfl
  | pause => rfl
  | finished => rfl

/-- Another job is finished alike. -/
theorem finishIfComplete_settle (filed : hub.ledger.Filed) (now : Instant) :
    (hub.settle record announced).finishIfComplete id now =
      ((hub.finishIfComplete id now).1.settle record
          (announced ++ finishedNames id (hub.finishIfComplete id now).2),
        (hub.finishIfComplete id now).2) := by
  have kept : (hub.settle record announced).accountant.account? id = hub.accountant.account? id :=
    account?_close_of_ne differ hub.accountant
  have planned (account : JobAccount) : (hub.settle record announced).plannedCount id account =
      hub.plannedCount id account := by
    have read : (hub.settle record announced).ledger.job? id = hub.ledger.job? id :=
      job?_putJob_of_ne differ whole hub.ledger
    rw [plannedCount, plannedCount, read]
  have stores : (hub.settle record announced).ledger.setJobState id .finished now =
      (hub.ledger.setJobState id .finished now).map fun moved =>
        (moved.1.putJob record, moved.2) := setJobState_putJob differ whole filed .finished now
  have retires : (hub.settle record announced).accountant.retire id id =
      (hub.accountant.retire id id).close record.id := retire_close differ hub.accountant
  have finishes : (hub.settle record announced).finish id now =
      (hub.finish id now).map fun after => after.settle record (announced ++ [id]) := by
    rw [finish, finish, stores, retires]
    cases hub.ledger.setJobState id .finished now <;> rfl
  rw [finishIfComplete, finishIfComplete, kept]
  cases hub.accountant.account? id with
  | none =>
      simp only [finishedNames, List.append_nil]
  | some account =>
      dsimp only
      rw [planned, finishes]
      cases account.allTerminal with
      | false => simp [finishedNames]
      | true =>
          cases hub.plannedCount id account with
          | error error => simp [finishedNames]
          | ok count =>
              by_cases few : account.tasks.size < count
              · simp [few, finishedNames]
              · cases hub.finish id now with
                | error error => simp [few, finishedNames, Except.map]
                | ok after => simp [few, finishedNames, Except.map]

/-! ## Handing out tasks of another job -/

theorem place_settle (filed : hub.ledger.Filed) (job : Job) (task : Task) (now : Instant) :
    (hub.settle record announced).place job id task now =
      ((hub.place job id task now).1.settle record announced,
        (hub.place job id task now).2) := by
  have nodes : (hub.settle record announced).nodes = hub.nodes := rfl
  have backlog : (hub.settle record announced).backlog = hub.backlog := rfl
  have assigns (node : String) : (hub.settle record announced).accountant.assign id task.id task
        node = (hub.accountant.assign id task.id task node).map (·.close record.id) :=
    assign_close differ ..
  rw [place, place, pickNode_settle, nodes, backlog]
  split
  · rfl
  · next index _ =>
    split
    · rfl
    · next node _ =>
      generalize hub.backlog.enqueue task = queued
      obtain ⟨number, queue⟩ := queued
      dsimp only
      rw [assigns]
      cases hub.accountant.assign id task.id task node.id with
      | error error => rfl
      | ok accountant =>
          let placed : Hub := { hub with
            backlog := queue, turn := hub.turn + 1, accountant := accountant }
          have stored : placed.ledger.Filed := filed
          have begins : Hub.begin { hub.settle record announced with
                nodes := hub.nodes
                backlog := queue
                turn := (hub.settle record announced).turn + 1
                accountant := accountant.close record.id } job id now =
              ((placed.begin job id now).1.settle record announced,
                (placed.begin job id now).2) := begin_settle differ whole stored job now
          dsimp only [Except.map] at begins ⊢
          rw [begins]
          dsimp only [placed]
          generalize Hub.begin _ job id now = result
          obtain ⟨begun, answer⟩ := result
          cases answer with
          | error error => rfl
          | ok _ => exact deliver_settle differ begun number task index node now

theorem dispatch_settle (filed : hub.ledger.Filed) (task : Task) (now : Instant) :
    (hub.settle record announced).dispatch id task now =
      ((hub.dispatch id task now).1.settle record announced, (hub.dispatch id task now).2) := by
  have present : (hub.settle record announced).accountant.hasTask id task.id =
      hub.accountant.hasTask id task.id := hasTask_close differ ..
  rw [dispatch, dispatch, findJob_settle differ whole]
  cases hub.findJob id with
  | error error => rfl
  | ok job =>
      dsimp only
      rw [present, place_settle differ whole filed]
      cases job.state.acceptsDispatch with
      | false => rfl
      | true => cases hub.accountant.hasTask id task.id <;> rfl

theorem dispatchSent_settle (filed : hub.ledger.Filed) (task : Task) (now : Instant) :
    (hub.settle record announced).dispatchSent id task now = hub.dispatchSent id task now := by
  rw [dispatchSent, dispatchSent, dispatch_settle differ whole filed]

/-- The tasks of another job are handed out alike, one after the other. -/
theorem dispatchTasks_settle (job : Job) (now : Instant) (indices : List Nat) (sent : Nat)
    (hub : Hub) (orderly : hub.Orderly) :
    dispatchTasks job id now indices sent (hub.settle record announced) =
        ((dispatchTasks job id now indices sent hub).1.settle record announced,
          (dispatchTasks job id now indices sent hub).2) ∧
      dispatchTasksSent job id now indices (hub.settle record announced) =
        dispatchTasksSent job id now indices hub := by
  induction indices generalizing sent hub with
  | nil => exact ⟨rfl, rfl⟩
  | cons index rest ih =>
      rw [dispatchTasks, dispatchTasks, dispatchTasksSent_cons, dispatchTasksSent_cons,
        buildTask_settle]
      cases hub.buildTask job index with
      | error error => exact ⟨rfl, rfl⟩
      | ok task =>
          have next := (handed_dispatch orderly id task now).touched.orderly
          dsimp only
          rw [dispatchSent_settle differ whole orderly.filed,
            dispatch_settle differ whole orderly.filed]
          generalize hub.dispatchSent id task now = names
          generalize hub.dispatch id task now = result at next ⊢
          obtain ⟨after, answer⟩ := result
          cases answer with
          | error error => exact ⟨rfl, rfl⟩
          | ok dispatched =>
              cases dispatched with
              | sent =>
                  obtain ⟨same, rest⟩ := ih (sent + 1) after next
                  exact ⟨same, congrArg (names ++ ·) rest⟩
              | alreadyAssigned =>
                  obtain ⟨same, rest⟩ := ih sent after next
                  exact ⟨same, congrArg (names ++ ·) rest⟩
              | held => exact ⟨rfl, rfl⟩

theorem dispatchJob_settle (orderly : hub.Orderly) (now : Instant) :
    (hub.settle record announced).dispatchJob id now =
        ((hub.dispatchJob id now).1.settle record announced, (hub.dispatchJob id now).2) ∧
      (hub.settle record announced).dispatchJobSent id now = hub.dispatchJobSent id now := by
  rw [dispatchJob, dispatchJob, dispatchJobSent_eq, dispatchJobSent_eq, findJob_settle differ whole]
  cases hub.findJob id with
  | error error => exact ⟨rfl, rfl⟩
  | ok job => exact dispatchTasks_settle differ whole job now _ 0 hub orderly

theorem startJob_settle (orderly : hub.Orderly) (now : Instant) :
    (hub.settle record announced).startJob id now =
        ((hub.startJob id now).1.settle record announced, (hub.startJob id now).2) ∧
      (hub.settle record announced).startJobSent id now = hub.startJobSent id now := by
  have moves : Handed hub (hub.moveJob id [.ready, .running, .pause] .resume now).1 id [] :=
    handed_moveJob orderly id (by decide) (by decide) now
  have moved := moves.touched.orderly
  rw [startJob, startJob, startJobSent_eq, startJobSent_eq, moveJob_settle differ whole orderly.filed]
  generalize hub.moveJob id [.ready, .running, .pause] .resume now = result at moved ⊢
  obtain ⟨after, answer⟩ := result
  cases answer with
  | error error => exact ⟨rfl, rfl⟩
  | ok job =>
      dsimp only
      by_cases ended : job.state = .finished
      · simp only [if_pos ended, and_self]
      · simp only [if_neg ended]
        exact dispatchJob_settle differ whole moved now

theorem stopJob_settle (filed : hub.ledger.Filed) (now : Instant) :
    (hub.settle record announced).stopJob id now =
      ((hub.stopJob id now).1.settle record announced, (hub.stopJob id now).2) := by
  rw [stopJob, stopJob, moveJob_settle differ whole filed]
  generalize hub.moveJob id [.ready, .running, .resume] .pause now = result
  obtain ⟨after, answer⟩ := result
  cases answer <;> rfl

/-! ## Reports and second looks at another job -/

theorem reconcile_settle (orderly : hub.Orderly) (now : Instant) :
    (hub.settle record announced).reconcile id now =
      ((hub.reconcile id now).1.settle record
          (announced ++ finishedNames id (hub.reconcile id now).2),
        (hub.reconcile id now).2) := by
  rw [reconcile, reconcile, awaitAccount_settle differ, awaitAccount_of_free orderly.free]
  cases hub.accountant.account? id with
  | none => simp only [finishedNames, List.append_nil]
  | some account =>
      dsimp only
      rw [recover_settle differ]
      have same := ledger_recover id account.outstanding hub
      generalize recover id account.outstanding hub = result at same ⊢
      obtain ⟨middle, answer⟩ := result
      cases answer with
      | error error => simp only [finishedNames, List.append_nil]
      | ok _ =>
          have filed : middle.ledger.Filed := orderly.filed.of_jobs_eq (congrArg Ledger.jobs same)
          exact finishIfComplete_settle differ whole filed now

end Apart

/-- A report for another job is taken into account alike. -/
theorem onCompletion_settle {completion : Completion} (differ : completion.job ≠ record.id)
    (whole : record.limits.Whole) (orderly : hub.Orderly) (now : Instant) :
    (hub.settle record announced).onCompletion completion now =
      ((hub.onCompletion completion now).1.settle record
          (announced ++ finishedNames completion.job (hub.onCompletion completion now).2),
        (hub.onCompletion completion now).2) := by
  rw [onCompletion, onCompletion, awaitAccount_settle differ, awaitAccount_of_free orderly.free]
  cases hub.accountant.account? completion.job with
  | none =>
      simp only [finishedNames, List.append_nil]
      rfl
  | some account =>
      dsimp only
      rw [applyState_settle differ]
      have filed : (hub.applyState completion.job completion.task
          completion.taskState).1.ledger.Filed := orderly.filed
      generalize hub.applyState completion.job completion.task completion.taskState = result
        at filed ⊢
      obtain ⟨middle, recorded⟩ := result
      have counted : (middle.count Metrics.eventIgnored).ledger.Filed := filed
      cases recorded with
      | updated => exact finishIfComplete_settle differ whole filed now
      | duplicate => exact finishIfComplete_settle differ whole counted now
      | unknown => exact finishIfComplete_settle differ whole counted now

/-- A report is recorded alike if the ledger records it alike. -/
theorem record_settle {completion : Completion}
    (records : (hub.ledger.putJob record).record completion now =
      ((hub.ledger.record completion now).1.putJob record,
        (hub.ledger.record completion now).2)) :
    (hub.settle record announced).record completion now =
      ((hub.record completion now).1.settle record announced,
        (hub.record completion now).2) := by
  have settled : (hub.settle record announced).ledger = hub.ledger.putJob record := rfl
  rw [Hub.record, Hub.record, settled, records]
  rcases hub.ledger.record completion now with ⟨ledger, error | recording⟩
  · rfl
  · rfl

/-- The record of another job is overwritten alike. -/
theorem overwrite_settle (differ : id ≠ record.id) (bytes : Option Bytes) :
    { hub.settle record announced with
        ledger := (hub.settle record announced).ledger.overwrite id bytes } =
      ({ hub with ledger := hub.ledger.overwrite id bytes } : Hub).settle record announced := by
  rw [settle, settle]
  dsimp only
  rw [overwrite_putJob differ]

end MediaHarvest.Hub

namespace MediaHarvest

/-! ## Calls -/

/-- A call neither concerns a job nor records anything of it. -/
def Call.Spares (id : String) : Call → Prop
  | .record completion => completion.job ≠ id
  | call => call.job? ≠ some id

namespace Hub

variable {hub : Hub} {record : Job} {announced : List String} {now : Instant}

/-- A call that spares a job does the same whether that was finished before or is finished
afterwards. -/
theorem perform_settle (whole : record.limits.Whole) (orderly : hub.Orderly) {call : Call}
    (spares : call.Spares record.id) (now : Instant) :
    call.perform now (hub.settle record announced) =
      ((call.perform now hub).1.settle record
          (announced ++ finishedJobs (call.perform now hub).2),
        (call.perform now hub).2) := by
  have apart {id : String} (differ : some id ≠ some record.id) : id ≠ record.id :=
    fun same => differ (congrArg some same)
  cases call with
  | dispatch id task =>
      have differ := apart spares
      rw [Call.perform, Call.perform, dispatch_settle differ whole orderly.filed,
        dispatchSent_settle differ whole orderly.filed, finishedJobs_map_sent, List.append_nil]
  | dispatchJob id =>
      rw [Call.perform, Call.perform, (dispatchJob_settle (apart spares) whole orderly now).1,
        (dispatchJob_settle (apart spares) whole orderly now).2, finishedJobs_map_sent,
        List.append_nil]
  | startJob id =>
      rw [Call.perform, Call.perform, (startJob_settle (apart spares) whole orderly now).1,
        (startJob_settle (apart spares) whole orderly now).2, finishedJobs_map_sent,
        List.append_nil]
  | stopJob id =>
      rw [Call.perform, Call.perform, stopJob_settle (apart spares) whole orderly.filed]
      exact Prod.ext (by simp [finishedJobs]) rfl
  | report completion =>
      rw [Call.perform, Call.perform, onCompletion_settle (apart spares) whole orderly,
        finishedJobs_reported]
  | reconcile id =>
      rw [Call.perform, Call.perform, reconcile_settle (apart spares) whole orderly,
        finishedJobs_reconciled]
  | record completion =>
      rw [Call.perform, Call.perform, record_settle (Ledger.record_putJob spares whole ..)]
      exact Prod.ext (by simp [finishedJobs]) rfl
  | removeJob id =>
      have removes : (hub.settle record announced).accountant.removeJob id =
          (hub.accountant.removeJob id).close record.id :=
        Accountant.removeJob_close (apart spares) ..
      rw [Call.perform, Call.perform, removes]
      exact Prod.ext (by simp [finishedJobs, settle]) rfl
  | takeTask node =>
      rw [Call.perform, Call.perform, takeTask_settle]
      exact Prod.ext (by simp [finishedJobs]) rfl
  | closeNode node =>
      rw [Call.perform, Call.perform, closeNode_settle]
      exact Prod.ext (by simp [finishedJobs]) rfl

end Hub

end MediaHarvest
