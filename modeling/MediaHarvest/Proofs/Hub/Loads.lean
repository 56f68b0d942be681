import MediaHarvest.Proofs.Accounting.Loads
import MediaHarvest.Proofs.Hub.Reconciling

/-!
# The loads of a hub are right

A second look ends tasks as their executions on record ended.  As long as nothing is on record that
has not ended, it is one more way to end a task, so every call keeps the load of each node equal to
the number of its tasks that have not ended.
-/

namespace MediaHarvest

open Ledger Accountant

/-! ## What is on record has ended -/

/-- Every execution on record has ended. -/
def Ledger.Concluded (ledger : Ledger) : Prop :=
  ∀ ⦃resource job kind execution⦄, ledger.execution? resource job kind = .ok (some execution) →
    execution.measurements.taskState.isTerminal = true

theorem Ledger.concluded_of_bare {ledger : Ledger} (bare : ledger.executions = ∅) :
    ledger.Concluded := by
  intro resource job kind execution found
  rw [execution?_of_bare bare] at found
  cases found

theorem Ledger.Concluded.of_executions_eq {ledger after : Ledger} (concluded : ledger.Concluded)
    (same : after.executions = ledger.executions) : after.Concluded := by
  intro resource job kind execution found
  rw [execution?_of_executions_eq same] at found
  exact concluded found

/-- What a report tells of has ended. -/
theorem Ledger.Concluded.appended {ledger after : Ledger} {completion : Completion} {job : Job}
    {active : Bool} {now : Instant} (concluded : ledger.Concluded)
    (appended : Appended ledger after (.ofCompletion completion job active now)) :
    after.Concluded := by
  intro resource id kind execution found
  by_cases same : executionKey resource id kind =
      executionKey completion.resource completion.job completion.kind
  · obtain ⟨other, known, origin⟩ := appended.known
    have found := (congrArg (fetch Execution.codec after.executions) same).symm.trans found
    have known : Except.ok (some other) = .ok (some execution) := known.symm.trans found
    cases known
    rcases origin with rfl | before
    · exact completion.verdict.taskState_isTerminal
    · exact concluded before
  · rw [appended.others _ _ _ same] at found
    exact concluded found

theorem Ledger.Concluded.record {ledger : Ledger} (concluded : ledger.Concluded)
    (completion : Completion) (now : Instant) : (ledger.record completion now).1.Concluded := by
  have written := ledger.written_record completion now
  generalize (ledger.record completion now).1 = after at written ⊢
  cases written with
  | nothing => exact concluded
  | appended found appended => exact concluded.appended appended
  | renewed found about appended renewal =>
      exact (concluded.appended appended).of_executions_eq (executions_renew ..)

namespace Hub

variable {hub : Hub}

/-! ## Handing out -/

theorem accountant_moveJob (hub : Hub) (id : String) (sources : List JobState) (target : JobState)
    (now : Instant) : (hub.moveJob id sources target now).1.accountant = hub.accountant := by
  rw [moveJob]
  split <;> rfl

theorem accountant_begin (hub : Hub) (job : Job) (id : String) (now : Instant) :
    (hub.begin job id now).1.accountant = hub.accountant := by
  have same := hub.accountant_moveJob id [.ready, .resume] .running now
  rw [begin]
  generalize hub.moveJob id [.ready, .resume] .running now = result at same ⊢
  obtain ⟨after, answer⟩ := result
  split
  · cases answer <;> exact same
  · cases answer <;> exact same
  · rfl

theorem balanced_deliver (balanced : hub.accountant.Balanced) (number : UInt64) (job : String)
    (task : Task) (index : Nat) (node : Node) (now : Instant) :
    (hub.deliver number job task index node now).1.accountant.Balanced := by
  rw [deliver]
  split
  · exact balanced
  · dsimp only
    split
    · exact balanced.withdraw job task.id
    · exact balanced.withdraw job task.id

theorem balanced_place (balanced : hub.accountant.Balanced) (job : Job) (id : String) (task : Task)
    (now : Instant) : (hub.place job id task now).1.accountant.Balanced := by
  rw [place]
  split
  · exact balanced
  · split
    · exact balanced
    · dsimp only
      split
      · exact balanced
      · next accountant assigned =>
        have entered : accountant.Balanced := balanced.assign assigned
        have same := accountant_begin
          { hub with
            backlog := (hub.backlog.enqueue task).2
            turn := hub.turn + 1
            accountant := accountant } job id now
        generalize Hub.begin _ job id now = result at same ⊢
        obtain ⟨after, answer⟩ := result
        have begun : after.accountant.Balanced := by
          rw [same]
          exact entered
        cases answer with
        | error error => exact begun
        | ok _ => exact balanced_deliver begun _ id task _ _ now

theorem balanced_dispatch (balanced : hub.accountant.Balanced) (id : String) (task : Task)
    (now : Instant) : (hub.dispatch id task now).1.accountant.Balanced := by
  rw [dispatch]
  split
  · exact balanced
  · split
    · exact balanced
    · split
      · exact balanced
      · exact balanced_place balanced _ id task now

theorem balanced_dispatchTasks (job : Job) (id : String) (now : Instant) (indices : List Nat)
    (sent : Nat) (hub : Hub) (balanced : hub.accountant.Balanced) :
    (dispatchTasks job id now indices sent hub).1.accountant.Balanced := by
  induction indices generalizing sent hub with
  | nil => exact balanced
  | cons index rest ih =>
      rw [dispatchTasks]
      split
      · exact balanced
      · next task _ =>
        have next := balanced_dispatch balanced id task now
        generalize hub.dispatch id task now = result at next ⊢
        obtain ⟨after, answer⟩ := result
        cases answer with
        | error error => exact next
        | ok dispatched =>
            cases dispatched with
            | sent => exact ih _ after next
            | alreadyAssigned => exact ih _ after next
            | held => exact next

theorem balanced_dispatchJob (balanced : hub.accountant.Balanced) (id : String) (now : Instant) :
    (hub.dispatchJob id now).1.accountant.Balanced := by
  rw [dispatchJob]
  split
  · exact balanced
  · exact balanced_dispatchTasks _ id now _ 0 hub balanced

theorem balanced_startJob (balanced : hub.accountant.Balanced) (id : String) (now : Instant) :
    (hub.startJob id now).1.accountant.Balanced := by
  have same := hub.accountant_moveJob id [.ready, .running, .pause] .resume now
  rw [startJob]
  generalize hub.moveJob id [.ready, .running, .pause] .resume now = result at same ⊢
  obtain ⟨after, answer⟩ := result
  have moved : after.accountant.Balanced := by
    rw [same]
    exact balanced
  cases answer with
  | error error => exact moved
  | ok job =>
      dsimp only
      split
      · exact moved
      · exact balanced_dispatchJob moved id now

theorem accountant_stopJob (hub : Hub) (id : String) (now : Instant) :
    (hub.stopJob id now).1.accountant = hub.accountant := by
  have same := hub.accountant_moveJob id [.ready, .running, .resume] .pause now
  rw [stopJob]
  generalize hub.moveJob id [.ready, .running, .resume] .pause now = result at same ⊢
  obtain ⟨after, answer⟩ := result
  cases answer <;> exact same

/-! ## Reports and second looks -/

/-- Neither the end of a task nor the end of a job breaks a property of accounts. -/
structure Lasting (holds : Accountant → Prop) : Prop where
  apply : ∀ {accountant : Accountant} (job id : String) {state : TaskState},
    state.isTerminal = true → holds accountant → holds (accountant.apply job id state).1
  /-- The account of a job is closed under its name. -/
  retire : ∀ {accountant : Accountant} (job : String),
    holds accountant → holds (accountant.retire job job)

theorem lasting_balanced : Lasting Balanced where
  apply job id _ terminal balanced := balanced.apply job id terminal
  retire job balanced := balanced.retire job

variable {holds : Accountant → Prop}

theorem Lasting.finishIfComplete (lasting : Lasting holds) (before : holds hub.accountant)
    (id : String) (now : Instant) : holds (hub.finishIfComplete id now).1.accountant := by
  rw [Hub.finishIfComplete]
  split
  · exact before
  · split
    · exact before
    · split
      · exact before
      · split
        · exact before
        · split
          · exact before
          · next after done =>
            rw [finish] at done
            obtain ⟨_, _, written⟩ := bind_eq_ok_iff.1 done
            cases written
            exact lasting.retire id before

theorem Lasting.onCompletion (lasting : Lasting holds) (orderly : hub.Orderly)
    (before : holds hub.accountant) (completion : Completion) (now : Instant) :
    holds (hub.onCompletion completion now).1.accountant := by
  cases kept : hub.accountant.account? completion.job with
  | none =>
      rw [onCompletion_of_gone orderly.free kept]
      exact before
  | some account =>
      rw [Hub.onCompletion, awaitAccount_of_free orderly.free, kept]
      dsimp only
      have noted : holds (hub.applyState completion.job completion.task
          completion.taskState).1.accountant :=
        lasting.apply completion.job completion.task completion.verdict.taskState_isTerminal before
      generalize hub.applyState completion.job completion.task completion.taskState = result
        at noted ⊢
      obtain ⟨after, recorded⟩ := result
      cases recorded with
      | updated => exact lasting.finishIfComplete noted completion.job now
      | duplicate =>
          have counted : holds (after.count Metrics.eventIgnored).accountant := noted
          exact lasting.finishIfComplete counted completion.job now
      | unknown =>
          have counted : holds (after.count Metrics.eventIgnored).accountant := noted
          exact lasting.finishIfComplete counted completion.job now

/-- What is recovered has ended. -/
theorem Lasting.recover (lasting : Lasting holds) (id : String) (records : List TaskRecord)
    (hub : Hub) (before : holds hub.accountant) (concluded : hub.ledger.Concluded) :
    holds (recover id records hub).1.accountant := by
  induction records generalizing hub with
  | nil => exact before
  | cons record rest ih =>
      rw [Hub.recover]
      split
      · exact before
      · exact ih hub before concluded
      · next execution found =>
        exact ih _ (lasting.apply id record.task.id (concluded found) before) concluded

theorem Lasting.reconcile (lasting : Lasting holds) (orderly : hub.Orderly)
    (before : holds hub.accountant) (concluded : hub.ledger.Concluded) (id : String)
    (now : Instant) : holds (hub.reconcile id now).1.accountant := by
  rw [Hub.reconcile, awaitAccount_of_free orderly.free]
  cases hub.accountant.account? id with
  | none => exact before
  | some account =>
      have next := lasting.recover id account.outstanding hub before concluded
      dsimp only
      generalize Hub.recover id account.outstanding hub = result at next ⊢
      obtain ⟨after, answer⟩ := result
      cases answer with
      | error error => exact next
      | ok _ => exact lasting.finishIfComplete next id now

/-! ## Every run -/

/-- The loads are right, and what is on record has ended. -/
structure Weighed (hub : Hub) : Prop where
  balanced : hub.accountant.Balanced
  concluded : hub.ledger.Concluded

theorem balanced_perform (orderly : hub.Orderly) (weighed : hub.Weighed) (call : Call)
    (now : Instant) : (call.perform now hub).1.accountant.Balanced := by
  have balanced := weighed.balanced
  cases call with
  | dispatch job task => exact balanced_dispatch balanced job task now
  | dispatchJob job => exact balanced_dispatchJob balanced job now
  | startJob job => exact balanced_startJob balanced job now
  | stopJob job =>
      rw [Call.perform, accountant_stopJob]
      exact balanced
  | report completion => exact lasting_balanced.onCompletion orderly balanced completion now
  | reconcile job => exact lasting_balanced.reconcile orderly balanced weighed.concluded job now
  | removeJob job => exact balanced.removeJob job
  | record completion =>
      have idle := idle_record hub completion now
      cases idle with
      | idle same =>
          rw [Call.perform, same]
          exact balanced
  | takeTask node =>
      have idle := idle_takeTask hub node
      cases idle with
      | idle same =>
          rw [Call.perform, same]
          exact balanced
  | closeNode node =>
      have idle := idle_closeNode hub node
      cases idle with
      | idle same =>
          rw [Call.perform, same]
          exact balanced

theorem Weighed.perform (weighed : hub.Weighed) (orderly : hub.Orderly) (call : Call)
    (now : Instant) : (call.perform now hub).1.Weighed where
  balanced := balanced_perform orderly weighed call now
  concluded := by
    by_cases recording : ∃ completion, call = .record completion
    · obtain ⟨completion, rfl⟩ := recording
      rw [Call.perform, ledger_record]
      exact weighed.concluded.record completion now
    · exact weighed.concluded.of_executions_eq <| executions_perform orderly call now
        fun completion same => recording ⟨completion, same⟩

end Hub

end MediaHarvest
