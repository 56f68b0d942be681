import MediaHarvest.Proofs.Hub.Completeness
import MediaHarvest.Proofs.Hub.Journal

/-!
# Every task is handed out once

However the calls of a run follow one another, whichever nodes go away and whatever is stopped and
started again, no task reaches a node twice; and once a start succeeds, every task of the job has
reached a node.
-/

namespace MediaHarvest

open Accountant

namespace Hub

variable {hub : Hub} {id : String} {job : Job} {task : Task} {now : Instant}
  {journal : List Entry}

/-! ## Held calls -/

theorem dispatch_of_closed (found : hub.ledger.job? id = .ok (some job))
    (closed : job.state.acceptsDispatch = false) (task : Task) (now : Instant) :
    hub.dispatch id task now = (hub, .ok (.held job.state)) := by
  rw [dispatch, findJob_eq_ok_iff.2 found]
  simp only [closed, Bool.not_false, if_true]

/-- A dispatch that is held changes nothing. -/
theorem dispatch_of_held (orderly : hub.Orderly) {state : JobState}
    (held : (hub.dispatch id task now).2 = .ok (.held state)) :
    (hub.dispatch id task now).1 = hub ∧ hub.dispatchSent id task now = [] := by
  have ends := dispatching orderly.sound orderly.filed id task now
  rw [held] at ends
  rw [dispatchSent, held]
  generalize (hub.dispatch id task now).1 = after at ends ⊢
  cases ends
  exact ⟨rfl, rfl⟩

/-- Handing out a job that does not accept dispatch changes nothing. -/
theorem dispatchJob_of_closed (found : hub.ledger.job? id = .ok (some job))
    (closed : job.state.acceptsDispatch = false) (now : Instant) :
    (hub.dispatchJob id now).1 = hub ∧ hub.dispatchJobSent id now = [] ∧
      ∀ count, (hub.dispatchJob id now).2 = .ok count → count = 0 := by
  rw [dispatchJob, dispatchJobSent_eq, findJob_eq_ok_iff.2 found]
  dsimp only
  cases List.range job.tasks.length with
  | nil =>
      refine ⟨rfl, rfl, ?_⟩
      rintro count ⟨⟩
      rfl
  | cons index rest =>
      rw [dispatchTasks, dispatchTasksSent_cons]
      cases hub.buildTask job index with
      | error error =>
          refine ⟨rfl, rfl, ?_⟩
          rintro count ⟨⟩
      | ok task =>
          dsimp only
          rw [dispatchSent, dispatch_of_closed found closed]
          refine ⟨rfl, rfl, ?_⟩
          rintro count ⟨⟩
          rfl

/-! ## Successful starts -/

/-- Only a stored job can be started. -/
theorem stored_of_startJob {count : Nat} (done : (hub.startJob id now).2 = .ok count) :
    ∃ job, hub.ledger.job? id = .ok (some job) := by
  rw [startJob, moveJob] at done
  cases moves : hub.ledger.moveJob id [.ready, .running, .pause] .resume now with
  | ok result => exact Ledger.stored_of_moveJob moves
  | error error =>
      rw [moves] at done
      cases error <;> cases done

/-- Once a job was handed out whole, each of its tasks was sent exactly once. -/
theorem count_of_handedOut {after : Hub} {names : List String} {count : Nat}
    (agree : Journaled after (journal ++ names.map (.sent id)))
    (whole : HandedOut hub after id job names count) {index : Nat}
    (inside : index < job.tasks.length) :
    (sentTasks (journal ++ names.map (.sent id))).count (id, job.taskId index) = 1 :=
  List.count_eq_one_of_mem agree.once (agree.accounted id _ (whole.accounted index inside))

/-! ## Every run -/

/-- What a hub owes for each task: it is sent at most once, and a successful start or dispatch of a
job leaves none of its tasks out. -/
structure SendsOnce (hub : Hub) (journal : List Entry) : Prop where
  /-- No task was handed to a node twice. -/
  once : (sentTasks journal).Nodup
  /-- A successful start hands out exactly the tasks that are missing. -/
  started : ∀ id now count, (hub.startJob id now).2 = .ok count →
    ∃ job, hub.ledger.job? id = .ok (some job) ∧
      HandedOut hub (hub.startJob id now).1 id job (hub.startJobSent id now) count ∧
      ∀ index < job.tasks.length,
        (sentTasks (journal ++ (hub.startJobSent id now).map (.sent id))).count
          (id, job.taskId index) = 1
  /-- So does a successful dispatch of a job that accepts dispatch. -/
  dispatched : ∀ id now job count, hub.ledger.job? id = .ok (some job) →
    job.state.acceptsDispatch = true → (hub.dispatchJob id now).2 = .ok count →
    HandedOut hub (hub.dispatchJob id now).1 id job (hub.dispatchJobSent id now) count ∧
      ∀ index < job.tasks.length,
        (sentTasks (journal ++ (hub.dispatchJobSent id now).map (.sent id))).count
          (id, job.taskId index) = 1
  /-- A dispatch that is held changes nothing. -/
  held : ∀ id task now state, (hub.dispatch id task now).2 = .ok (.held state) →
    (hub.dispatch id task now).1 = hub ∧ hub.dispatchSent id task now = []
  /-- Handing out a job that does not accept dispatch changes nothing. -/
  closed : ∀ id now job, hub.ledger.job? id = .ok (some job) →
    job.state.acceptsDispatch = false →
    (hub.dispatchJob id now).1 = hub ∧ hub.dispatchJobSent id now = [] ∧
      ∀ count, (hub.dispatchJob id now).2 = .ok count → count = 0

theorem Journaled.sendsOnce (agree : Journaled hub journal) : SendsOnce hub journal where
  once := agree.once
  started := by
    intro id now count done
    obtain ⟨job, found⟩ := stored_of_startJob done
    have whole := handedOut_startJob agree.orderly found done
    have next := agree.handed (handed_startJob agree.orderly id now)
    exact ⟨job, found, whole, fun _ inside => count_of_handedOut next whole inside⟩
  dispatched := by
    intro id now job count found accepts done
    have whole := handedOut_dispatchJob agree.orderly found accepts done
    have next := agree.handed (handed_dispatchJob agree.orderly id now)
    exact ⟨whole, fun _ inside => count_of_handedOut next whole inside⟩
  held := fun _ _ _ _ held => dispatch_of_held agree.orderly held
  closed := fun _ now _ found closed => dispatchJob_of_closed found closed now

/-- From a hub without accounts every run sends every task at most once, and leaves none out where
it succeeds. -/
theorem sendsOnce_run (hub : Hub) (fresh : hub.accountant = .empty) (filed : hub.ledger.Filed)
    (calls : List (Call × Instant)) : SendsOnce (run calls hub).1 (run calls hub).2 :=
  ((journaled_nil fresh filed).run calls hub []).sendsOnce

theorem sendsOnce_pairCalls :
    pairHub.accountant = .empty ∧ pairHub.ledger.Filed ∧
      SendsOnce (run pairCalls pairHub).1 (run pairCalls pairHub).2 :=
  ⟨rfl, pairHub_filed, sendsOnce_run pairHub rfl pairHub_filed pairCalls⟩

end Hub

end MediaHarvest
