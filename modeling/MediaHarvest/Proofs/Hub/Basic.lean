import MediaHarvest.Hub.Reception
import MediaHarvest.Proofs.Accounting
import MediaHarvest.Proofs.Ledger.Jobs

/-!
# Hubs in order

A hub is in order if its accounts and its jobs are and nobody holds an account.  `Touched` says of
a call that it leaves the hub in order and concerns a single job.
-/

namespace MediaHarvest.Hub

open Accountant Ledger

/-- Accounts and jobs are in order, and no account is held. -/
structure Orderly (hub : Hub) : Prop where
  /-- Kept accounts are open, and retired jobs have none. -/
  sound : hub.accountant.Sound
  /-- Every job stands under its own name. -/
  filed : hub.ledger.Filed
  free : hub.accountant.holder = none

/-- A call left the hub in order and touched a single job. -/
structure Touched (hub after : Hub) (id : String) : Prop where
  /-- The hub is in order. -/
  orderly : after.Orderly
  /-- The accounts of other jobs are as before. -/
  accounts : ∀ other, other ≠ id → after.accountant.account? other = hub.accountant.account? other
  /-- No other job is retired or comes back. -/
  retired : ∀ other, other ≠ id →
    after.accountant.retired.contains other = hub.accountant.retired.contains other
  jobs : ∀ other, other ≠ id → after.ledger.job? other = hub.ledger.job? other

variable {hub middle after : Hub} {id : String}

theorem Touched.refl (orderly : hub.Orderly) (id : String) : Touched hub hub id :=
  ⟨orderly, fun _ _ => rfl, fun _ _ => rfl, fun _ _ => rfl⟩

theorem Touched.trans (first : Touched hub middle id) (second : Touched middle after id) :
    Touched hub after id where
  orderly := second.orderly
  accounts := fun other differ => (second.accounts other differ).trans (first.accounts other differ)
  retired := fun other differ => (second.retired other differ).trans (first.retired other differ)
  jobs := fun other differ => (second.jobs other differ).trans (first.jobs other differ)

/-- The tasks of other jobs are as before. -/
theorem Touched.task? (touched : Touched hub after id) {other : String} (differ : other ≠ id)
    (task : String) : after.accountant.task? other task = hub.accountant.task? other task := by
  rw [task?_eq, task?_eq, touched.accounts other differ]

/-- What a hub records it records in its ledger. -/
theorem ledger_record (hub : Hub) (completion : Completion) (now : Instant) :
    (hub.record completion now).1.ledger = (hub.ledger.record completion now).1 := by
  rw [record]
  rcases hub.ledger.record completion now with ⟨ledger, error | recording⟩
  · rfl
  · rfl

/-- Writing one account and one job touches that job only. -/
theorem touched_of_rewritten {ledger : Ledger} {accountant : Accountant} {written : JobAccount}
    {before job : Job} (free : hub.accountant.holder = none)
    (restated : Restated hub.ledger ledger id before job)
    (rewritten : Rewritten hub.accountant accountant id written)
    (ledgerEq : after.ledger = ledger) (accountantEq : after.accountant = accountant) :
    Touched hub after id := by
  subst ledgerEq accountantEq
  exact ⟨⟨rewritten.sound, restated.filed, rewritten.holder.trans free⟩, rewritten.others,
    fun _ _ => by rw [rewritten.retired], restated.others⟩

/-- A hub with the same accounts and jobs is as good as another. -/
theorem touched_of_same (orderly : hub.Orderly) (accountant : after.accountant = hub.accountant)
    (jobs : after.ledger.jobs = hub.ledger.jobs) : Touched hub after id := by
  refine ⟨⟨?_, orderly.filed.of_jobs_eq jobs, ?_⟩, ?_, ?_, ?_⟩
  · rw [accountant]
    exact orderly.sound
  · rw [accountant]
    exact orderly.free
  · intro other _
    rw [accountant]
  · intro other _
    rw [accountant]
  · intro other _
    rw [job?, job?, jobs]

end MediaHarvest.Hub
