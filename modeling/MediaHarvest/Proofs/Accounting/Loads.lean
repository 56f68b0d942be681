import MediaHarvest.Proofs.Accounting

/-!
# Loads of nodes

The load of a node is kept as a number of its own beside the accounts.  It is the number of tasks of
the node that have not ended, in whatever accounts they stand (`Balanced`): every operation moves
both by the same amount, so nothing is ever taken off a load that is not on it.
-/

namespace MediaHarvest

/-- What a task adds to the load of a node: one if it is with the node and has not ended. -/
def TaskRecord.burden (record : TaskRecord) (node : String) : Nat :=
  if record.node = node ∧ record.state.isTerminal = false then 1 else 0

theorem TaskRecord.burden_of_ended {record : TaskRecord} (ended : record.state.isTerminal = true)
    (node : String) : record.burden node = 0 := by
  simp [burden, ended]

theorem TaskRecord.burden_of_running {record : TaskRecord}
    (running : record.state.isTerminal = false) (node : String) :
    record.burden node = if record.node = node then 1 else 0 := by
  simp [burden, running]

namespace JobAccount

variable {account : JobAccount} {id : String} {record : TaskRecord}

/-- How many tasks of a node have not ended. -/
def outstandingOn (account : JobAccount) (node : String) : Nat :=
  account.outstanding.countP fun record => record.node = node

theorem outstandingOn_empty (node : String) : empty.outstandingOn node = 0 := rfl

/-- The account without one of its tasks. -/
def without (account : JobAccount) (id : String) : JobAccount :=
  { account with tasks := account.tasks.erase id }

theorem outstandingOn_cons {tasks : SortedMap String TaskRecord} {rest : List TaskRecord}
    (perm : tasks.values.Perm (record :: rest)) (removed : Bool) (node : String) :
    outstandingOn ⟨tasks, removed⟩ node = record.burden node +
      (rest.filter fun record => !record.state.isTerminal).countP fun record =>
        record.node = node := by
  rw [outstandingOn, outstanding, (perm.filter _).countP_eq]
  cases ended : record.state.isTerminal with
  | true =>
      rw [List.filter_cons_of_neg (by simp [ended]), TaskRecord.burden_of_ended ended, Nat.zero_add]
  | false =>
      rw [List.filter_cons_of_pos (by simp [ended]), List.countP_cons,
        TaskRecord.burden_of_running ended, Nat.add_comm]
      simp

/-- A task and the others add up to the account. -/
theorem outstandingOn_of_found (found : account.tasks.get? id = some record) (node : String) :
    account.outstandingOn node = record.burden node + (account.without id).outstandingOn node :=
  outstandingOn_cons (SortedMap.values_perm found) account.removed node

/-- A written task takes the place of the one with the same name. -/
theorem outstandingOn_insert (account : JobAccount) (id : String) (record : TaskRecord)
    (node : String) :
    outstandingOn { account with tasks := account.tasks.insert id record } node =
      record.burden node + (account.without id).outstandingOn node := by
  have found : (account.tasks.insert id record).get? id = some record := by
    rw [SortedMap.get?_insert, if_pos rfl]
  rw [outstandingOn_of_found found, without, SortedMap.erase_insert]
  rfl

end JobAccount

namespace Accountant

variable {accountant after : Accountant} {job id node : String} {task : Task}
  {account written : JobAccount} {record : TaskRecord} {state : TaskState}

/-- The tasks of all accounts that have not ended. -/
def outstanding (accountant : Accountant) : List TaskRecord :=
  accountant.jobs.values.flatMap (·.outstanding)

/-- How many tasks of a node have not ended. -/
def outstandingOn (accountant : Accountant) (node : String) : Nat :=
  accountant.outstanding.countP fun record => record.node = node

/-- The accounts without that of a job. -/
def without (accountant : Accountant) (job : String) : Accountant :=
  { accountant with jobs := accountant.jobs.erase job }

/-- How many tasks have not ended depends on the accounts only. -/
theorem outstandingOn_of_jobs_eq (same : after.jobs = accountant.jobs) (node : String) :
    after.outstandingOn node = accountant.outstandingOn node := by
  rw [outstandingOn, outstanding, same]
  rfl

/-- An account and the others add up. -/
theorem outstandingOn_of_kept (kept : accountant.jobs.get? job = some account) (node : String) :
    accountant.outstandingOn node =
      account.outstandingOn node + (accountant.without job).outstandingOn node := by
  rw [outstandingOn, outstanding,
    ((SortedMap.values_perm kept).flatMap_right _).countP_eq, List.flatMap_cons,
    List.countP_append]
  rfl

/-- A job without an account has no task that has not ended. -/
theorem outstandingOn_getD (accountant : Accountant) (job node : String) :
    accountant.outstandingOn node =
      ((accountant.jobs.get? job).getD .empty).outstandingOn node +
        (accountant.without job).outstandingOn node := by
  cases kept : accountant.jobs.get? job with
  | some account => exact outstandingOn_of_kept kept node
  | none =>
      have new : accountant.jobs.contains job = false := by rw [SortedMap.contains, kept]; rfl
      rw [without, SortedMap.erase_of_new new, Option.getD_none, JobAccount.outstandingOn_empty,
        Nat.zero_add]

/-- A written account takes the place of the one of the same job. -/
theorem outstandingOn_setAccount (accountant : Accountant) (job : String) (written : JobAccount)
    (node : String) :
    (accountant.setAccount job written).outstandingOn node =
      written.outstandingOn node + (accountant.without job).outstandingOn node := by
  have kept : (accountant.setAccount job written).jobs.get? job = some written := by
    rw [setAccount, SortedMap.get?_insert, if_pos rfl]
  rw [outstandingOn_of_kept kept, without, setAccount, SortedMap.erase_insert]
  rfl

/-! ## What is taken off -/

theorem load_release (accountant : Accountant) (node : String) (count : Nat) (other : String) :
    (accountant.release node count).load other =
      accountant.load other - if node = other then count else 0 := by
  rw [release]
  cases kept : accountant.loads.get? node with
  | none =>
      by_cases same : node = other
      · subst same
        rw [load, kept, Option.getD_none, Nat.zero_sub]
      · rw [if_neg same, Nat.sub_zero]
  | some count' =>
      rw [load, SortedMap.get?_insert]
      by_cases same : node = other
      · subst same
        rw [if_pos rfl, if_pos rfl, load, kept]
        rfl
      · rw [if_neg (Ne.symm same), if_neg same, Nat.sub_zero]
        rfl

/-- Taking tasks off one after another takes off as many as there are. -/
theorem load_releaseAll (records : List TaskRecord) (accountant : Accountant) (node : String) :
    (accountant.releaseAll records).load node =
      accountant.load node - records.countP fun record => record.node = node := by
  induction records generalizing accountant with
  | nil => rfl
  | cons record rest ih =>
      rw [releaseAll, List.foldl_cons, ← releaseAll, ih, load_release, List.countP_cons,
        Nat.sub_sub, Nat.add_comm]
      simp

/-! ## Loads that are right -/

/-- The load of every node is the number of its tasks that have not ended. -/
def Balanced (accountant : Accountant) : Prop :=
  ∀ node, accountant.load node = accountant.outstandingOn node

theorem balanced_empty : empty.Balanced := fun _ => rfl

/-- A task that has not ended is on the load of its node. -/
theorem Balanced.one_le_load (balanced : accountant.Balanced)
    (kept : accountant.jobs.get? job = some account) (found : account.tasks.get? id = some record)
    (running : record.state.isTerminal = false) : 1 ≤ accountant.load record.node := by
  rw [balanced, outstandingOn_of_kept kept, JobAccount.outstandingOn_of_found found,
    TaskRecord.burden_of_running running, if_pos rfl]
  omega

/-- The tasks of an account that have not ended are on the loads of their nodes. -/
theorem Balanced.outstandingOn_le_load (balanced : accountant.Balanced)
    (kept : accountant.jobs.get? job = some account) (node : String) :
    account.outstandingOn node ≤ accountant.load node := by
  rw [balanced, outstandingOn_of_kept kept]
  exact Nat.le_add_right ..

/-- A task was written over another one, and what it adds less was taken off the load. -/
theorem Balanced.rewrite (balanced : accountant.Balanced)
    (kept : accountant.jobs.get? job = some account) (found : account.tasks.get? id = some record)
    {next : TaskRecord}
    (jobs : after.jobs =
      (accountant.setAccount job
        { account with tasks := account.tasks.insert id next }).jobs)
    (loads : ∀ node, after.load node + record.burden node =
      accountant.load node + next.burden node) : after.Balanced := by
  intro node
  have before := balanced node
  have moved := loads node
  rw [outstandingOn_of_kept kept, JobAccount.outstandingOn_of_found found] at before
  rw [outstandingOn_of_jobs_eq jobs, outstandingOn_setAccount, JobAccount.outstandingOn_insert]
  omega

/-- An account that is not closed is kept. -/
theorem get?_of_account? (kept : accountant.account? job = some account) :
    accountant.jobs.get? job = some account := by
  rw [account?] at kept
  split at kept
  · next found =>
    split at kept
    · cases kept
    · cases kept
      exact found
  · cases kept

theorem Balanced.assign (balanced : accountant.Balanced)
    (done : accountant.assign job id task node = .ok after) : after.Balanced := by
  rw [Accountant.assign] at done
  split at done
  · cases done
  · dsimp only at done
    generalize present : (accountant.jobs.get? job).getD .empty = account at done
    split at done
    · cases done
    · split at done
      · cases done
        exact balanced
      · next new =>
        cases done
        have new : account.tasks.contains id = false := by simpa using new
        have whole : account.without id = account := by
          rw [JobAccount.without, SortedMap.erase_of_new new]
        intro other
        have before := balanced other
        rw [outstandingOn_getD accountant job, present] at before
        show ((accountant.loads.insert node (accountant.load node + 1)).get? other).getD 0 =
          (accountant.setAccount job _).outstandingOn other
        rw [outstandingOn_setAccount, JobAccount.outstandingOn_insert, whole,
          TaskRecord.burden_of_running rfl, SortedMap.get?_insert]
        by_cases same : node = other
        · subst same
          rw [if_pos rfl, if_pos rfl, Option.getD_some, before]
          omega
        · rw [if_neg (Ne.symm same), if_neg same, Nat.zero_add]
          exact before

theorem Balanced.markRunning (balanced : accountant.Balanced) (job id : String) :
    (accountant.markRunning job id).Balanced := by
  rw [Accountant.markRunning]
  split
  · exact balanced
  · next account kept =>
    split
    · next record found =>
      split
      · next pending =>
        refine balanced.rewrite (get?_of_account? kept) found rfl fun node => ?_
        let running : TaskRecord := { record with state := .running }
        have after : running.burden node = _ := TaskRecord.burden_of_running rfl node
        rw [TaskRecord.burden_of_running (by rw [pending]; rfl), after]
        rfl
      · exact balanced
    · exact balanced

/-- Noting the end of a task takes it off the load of its node. -/
theorem Balanced.apply (balanced : accountant.Balanced) (job id : String)
    (terminal : state.isTerminal = true) : (accountant.apply job id state).1.Balanced := by
  rw [Accountant.apply, recordOnly]
  cases kept : accountant.jobs.get? job with
  | none => exact balanced
  | some account =>
      rw [Option.getD_some, JobAccount.record]
      cases found : account.tasks.get? id with
      | none => exact balanced
      | some record =>
          dsimp only
          cases ended : record.state.isTerminal with
          | true => exact balanced
          | false =>
              refine balanced.rewrite kept found (release_jobs ..) fun node => ?_
              have on := balanced.one_le_load kept found ended
              let noted : TaskRecord := { record with state := state }
              have after : noted.burden node = 0 := TaskRecord.burden_of_ended terminal node
              rw [TaskRecord.burden_of_running ended, after]
              simp only [Bool.false_eq_true, if_false]
              rw [load_release]
              show accountant.load node - _ + _ = _
              by_cases same : record.node = node
              · subst same
                rw [if_pos rfl]
                omega
              · rw [if_neg same]
                omega

theorem Balanced.withdraw (balanced : accountant.Balanced) (job id : String) :
    (accountant.withdraw job id).Balanced := by
  rw [Accountant.withdraw]
  split
  · exact balanced
  · next account kept =>
    have kept := get?_of_account? kept
    split
    · exact balanced
    · next record found =>
      intro node
      have before := balanced node
      rw [outstandingOn_of_kept kept, JobAccount.outstandingOn_of_found found] at before
      have left : (accountant.setAccount job (account.without id)).outstandingOn node =
          (account.without id).outstandingOn node + (accountant.without job).outstandingOn node :=
        outstandingOn_setAccount ..
      dsimp only
      cases ended : record.state.isTerminal with
      | true =>
          rw [TaskRecord.burden_of_ended ended] at before
          show accountant.load node =
            (accountant.setAccount job (account.without id)).outstandingOn node
          omega
      | false =>
          rw [TaskRecord.burden_of_running ended] at before
          simp only [Bool.false_eq_true, if_false]
          rw [load_release, outstandingOn_of_jobs_eq (release_jobs ..)]
          show accountant.load node - _ =
            (accountant.setAccount job (account.without id)).outstandingOn node
          omega

/-- Retiring a job takes all its tasks off the loads of their nodes. -/
theorem Balanced.retire (balanced : accountant.Balanced) (job : String) :
    (accountant.retire job job).Balanced := by
  rw [Accountant.retire]
  split
  · exact balanced
  · next account kept =>
    have kept := get?_of_account? kept
    intro node
    have before := balanced node
    rw [outstandingOn_of_kept kept] at before
    dsimp only
    rw [load_releaseAll, outstandingOn_of_jobs_eq (releaseAll_same ..).1]
    have left : outstandingOn { accountant.setAccount job ⟨∅, true⟩ with
          jobs := (accountant.setAccount job ⟨∅, true⟩).jobs.erase job
          retired := (accountant.setAccount job ⟨∅, true⟩).retired.insert job () } node =
        (accountant.without job).outstandingOn node :=
      outstandingOn_of_jobs_eq (SortedMap.erase_insert ..) node
    rw [left]
    show accountant.load node - account.outstandingOn node = _
    omega

theorem Balanced.removeJob (balanced : accountant.Balanced) (job : String) :
    (accountant.removeJob job).Balanced := by
  rw [Accountant.removeJob]
  split
  · exact balanced.retire job
  · exact balanced

end Accountant

end MediaHarvest
