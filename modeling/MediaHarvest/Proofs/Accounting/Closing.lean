import MediaHarvest.Proofs.Accounting.Marks

/-!
# Accounts that are closed early

Closing the account of a job whose tasks have all ended takes nothing off the loads.  Whatever is
done to the account of another job, it does not matter whether this one was closed before or is
closed afterwards.
-/

namespace MediaHarvest.Accountant

variable {accountant : Accountant} {job other : String}

/-- The accounts once a job was retired all of whose tasks had ended. -/
def close (accountant : Accountant) (job : String) : Accountant :=
  { accountant with
    jobs := accountant.jobs.erase job
    retired := accountant.retired.insert job () }

/-- The account of the job is gone, and no other one. -/
theorem account?_close (accountant : Accountant) (job other : String) :
    (accountant.close job).account? other =
      if other = job then none else accountant.account? other :=
  account?_of_erase rfl other

theorem contains_retired_close (accountant : Accountant) (job other : String) :
    (accountant.close job).retired.contains other =
      (decide (other = job) || accountant.retired.contains other) := by
  rw [close, SortedMap.contains, SortedMap.contains, SortedMap.get?_insert]
  by_cases same : other = job <;> simp [same]

/-! ## What concerns all accounts -/

theorem release_close (accountant : Accountant) (job node : String) (count : Nat) :
    (accountant.close job).release node count = (accountant.release node count).close job := by
  rw [release, release, close]
  dsimp only
  split <;> rfl

theorem releaseAll_close (job : String) (records : List TaskRecord) (accountant : Accountant) :
    (accountant.close job).releaseAll records = (accountant.releaseAll records).close job := by
  induction records generalizing accountant with
  | nil => rfl
  | cons record rest ih =>
      rw [releaseAll, List.foldl_cons, release_close, ← releaseAll, ih]
      rfl

/-! ## What concerns another account -/

section Apart

variable (differ : other ≠ job)
include differ

theorem get?_close (accountant : Accountant) :
    (accountant.close job).jobs.get? other = accountant.jobs.get? other :=
  (SortedMap.get?_erase ..).trans (if_neg differ)

theorem account?_close_of_ne (accountant : Accountant) :
    (accountant.close job).account? other = accountant.account? other :=
  (account?_close ..).trans (if_neg differ)

theorem hasTask_close (accountant : Accountant) (id : String) :
    (accountant.close job).hasTask other id = accountant.hasTask other id := by
  rw [hasTask, hasTask, task?_eq, task?_eq, account?_close_of_ne differ]

theorem setAccount_close (accountant : Accountant) (account : JobAccount) :
    (accountant.close job).setAccount other account =
      (accountant.setAccount other account).close job := by
  rw [setAccount, setAccount, close, close]
  dsimp only
  rw [SortedMap.insert_erase_comm (Ne.symm differ)]

/-- A task of another job is entered alike. -/
theorem assign_close (accountant : Accountant) (id : String) (task : Task) (node : String) :
    (accountant.close job).assign other id task node =
      (accountant.assign other id task node).map (·.close job) := by
  have retired : (accountant.close job).retired.contains other =
      accountant.retired.contains other := by
    rw [contains_retired_close, decide_eq_false differ, Bool.false_or]
  rw [assign, assign, retired, get?_close differ]
  split
  · rfl
  · dsimp only
    split
    · rfl
    · split
      · rfl
      · rw [setAccount_close differ]
        rfl

theorem withdraw_close (accountant : Accountant) (id : String) :
    (accountant.close job).withdraw other id = (accountant.withdraw other id).close job := by
  rw [withdraw, withdraw, account?_close_of_ne differ]
  split
  · rfl
  · split
    · rfl
    · dsimp only
      rw [setAccount_close differ]
      split
      · rfl
      · exact release_close ..

/-- The end of a task of another job is noted alike. -/
theorem apply_close (accountant : Accountant) (id : String) (state : TaskState) :
    (accountant.close job).apply other id state =
      ((accountant.apply other id state).1.close job, (accountant.apply other id state).2) := by
  rw [apply, apply, recordOnly, recordOnly, get?_close differ]
  dsimp only
  generalize ((accountant.jobs.get? other).getD .empty).record id state = noted
  obtain ⟨account, recorded, node⟩ := noted
  cases recorded with
  | updated =>
      dsimp only
      rw [setAccount_close differ]
      cases node with
      | none => rfl
      | some node =>
          dsimp only
          rw [release_close]
  | duplicate => rfl
  | unknown => rfl

theorem retire_close (accountant : Accountant) :
    (accountant.close job).retire other other = (accountant.retire other other).close job := by
  rw [retire, retire, account?_close_of_ne differ]
  split
  · rfl
  · next account _ =>
    have closed : { (accountant.close job).setAccount other ⟨∅, true⟩ with
          jobs := ((accountant.close job).setAccount other ⟨∅, true⟩).jobs.erase other
          retired := ((accountant.close job).setAccount other ⟨∅, true⟩).retired.insert other () } =
        close { accountant.setAccount other ⟨∅, true⟩ with
          jobs := (accountant.setAccount other ⟨∅, true⟩).jobs.erase other
          retired := (accountant.setAccount other ⟨∅, true⟩).retired.insert other () } job := by
      rw [setAccount_close differ, close, close]
      dsimp only
      rw [SortedMap.erase_comm, SortedMap.insert_comm (Ne.symm differ)]
    dsimp only at closed ⊢
    rw [closed, releaseAll_close]

theorem removeJob_close (accountant : Accountant) :
    (accountant.close job).removeJob other = (accountant.removeJob other).close job := by
  rw [removeJob, removeJob, account?_close_of_ne differ]
  split
  · exact retire_close differ accountant
  · rw [close, close]
    dsimp only
    rw [SortedMap.insert_comm (Ne.symm differ)]

end Apart

end MediaHarvest.Accountant
