import MediaHarvest.Proofs.Accounting.Loads

/-!
# Accounts after reports

How a task ended depends on which report of it came in first; that it ended does not.  So a record
is looked at as it stands, with one state for all ends.  An account is `Marked` if exactly the
tasks that were named have ended since.
-/

namespace MediaHarvest

namespace TaskRecord

/-- The record, with one state for all ends of the task. -/
def standing (record : TaskRecord) : TaskRecord :=
  if record.state.isTerminal then { record with state := .done } else record

/-- How the task stands after reports, which may have named it. -/
def marked (record : TaskRecord) (named : Bool) : TaskRecord :=
  if named then { record with state := .done } else record.standing

variable {record other : TaskRecord} {named : Bool} {state : TaskState}

@[simp]
theorem standing_task (record : TaskRecord) : record.standing.task = record.task := by
  rw [standing]
  split <;> rfl

@[simp]
theorem marked_task (record : TaskRecord) (named : Bool) :
    (record.marked named).task = record.task := by
  rw [marked]
  split
  · rfl
  · exact record.standing_task

@[simp]
theorem standing_node (record : TaskRecord) : record.standing.node = record.node := by
  rw [standing]
  split <;> rfl

@[simp]
theorem marked_node (record : TaskRecord) (named : Bool) :
    (record.marked named).node = record.node := by
  rw [marked]
  split
  · rfl
  · exact record.standing_node

@[simp]
theorem standing_isTerminal (record : TaskRecord) :
    record.standing.state.isTerminal = record.state.isTerminal := by
  rw [standing]
  split
  · next ended => exact ended.symm
  · rfl

@[simp]
theorem marked_isTerminal (record : TaskRecord) (named : Bool) :
    (record.marked named).state.isTerminal = (record.state.isTerminal || named) := by
  rw [marked]
  cases named with
  | true => simp [TaskState.isTerminal]
  | false => simp

/-- What has ended stands as it stood, named or not. -/
theorem marked_of_ended (ended : record.state.isTerminal = true) (named : Bool) :
    record.marked named = record.standing := by
  cases named with
  | true => rw [marked, if_pos rfl, standing, if_pos ended]
  | false => rfl

/-- A task stands in the same way however it ended. -/
theorem standing_withState (same : other.standing = record.marked named)
    (terminal : state.isTerminal = true) :
    ({ other with state := state } : TaskRecord).standing = record.marked true := by
  have task : other.task = record.task := by simpa using congrArg TaskRecord.task same
  have node : other.node = record.node := by simpa using congrArg TaskRecord.node same
  rw [standing, if_pos terminal, marked, if_pos rfl, task, node]

end TaskRecord

namespace JobAccount

variable {account later : JobAccount} {named : String → Bool} {id : String} {record : TaskRecord}
  {state : TaskState}

/-- The account has the tasks it had, and exactly those that are named have ended since. -/
def Marked (named : String → Bool) (account later : JobAccount) : Prop :=
  ∀ id, (later.tasks.get? id).map (·.standing) =
    (account.tasks.get? id).map (·.marked (named id))

theorem marked_refl (account : JobAccount) : Marked (fun _ => false) account account :=
  fun _ => rfl

namespace Marked

theorem contains (marked : Marked named account later) (id : String) :
    later.tasks.contains id = account.tasks.contains id := by
  have same := congrArg Option.isSome (marked id)
  rwa [Option.isSome_map, Option.isSome_map] at same

theorem size (marked : Marked named account later) : later.tasks.size = account.tasks.size :=
  SortedMap.size_eq_of_contains marked.contains

/-- A task of the account is one that it had. -/
theorem origin (marked : Marked named account later) (found : later.tasks.get? id = some record) :
    ∃ former, account.tasks.get? id = some former ∧
      record.standing = former.marked (named id) := by
  have same := marked id
  rw [found, Option.map_some] at same
  obtain ⟨former, stood, marks⟩ := Option.map_eq_some_iff.1 same.symm
  exact ⟨former, stood, marks.symm⟩

/-- Whether a task has ended. -/
theorem isTerminal_of_found (marked : Marked named account later) {former : TaskRecord}
    (stood : account.tasks.get? id = some former) (found : later.tasks.get? id = some record) :
    record.state.isTerminal = (former.state.isTerminal || named id) := by
  obtain ⟨other, same, marks⟩ := marked.origin found
  cases stood.symm.trans same
  have ends := congrArg (·.state.isTerminal) marks
  simpa using ends

/-- The account has ended if every task had ended or was named. -/
theorem allTerminal_eq (marked : Marked named account later) :
    later.allTerminal =
      account.tasks.entries.all fun entry => entry.2.state.isTerminal || named entry.1 := by
  rw [Bool.eq_iff_iff, List.all_eq_true]
  constructor
  · rintro ended ⟨id, former⟩ mem
    have stood := SortedMap.get?_eq_some_iff.2 mem
    have present : later.tasks.contains id = true := by
      rw [marked.contains, SortedMap.contains, stood]
      rfl
    obtain ⟨record, found⟩ := Option.isSome_iff_exists.1 present
    rw [← marked.isTerminal_of_found stood found]
    exact allTerminal_iff.1 ended id record found
  · intro ended
    refine allTerminal_iff.2 fun id record found => ?_
    obtain ⟨former, stood, _⟩ := marked.origin found
    rw [marked.isTerminal_of_found stood found]
    exact ended (id, former) (SortedMap.get?_eq_some_iff.1 stood)

/-- A task that is noted as ended is one more that was named. -/
theorem note (marked : Marked named account later) (found : later.tasks.get? id = some record)
    (terminal : state.isTerminal = true) {named' : String → Bool} (own : named' id = true)
    (others : ∀ other, other ≠ id → named' other = named other) :
    Marked named' account
      { later with tasks := later.tasks.insert id { record with state := state } } := by
  intro other
  dsimp only
  rw [SortedMap.get?_insert]
  by_cases same : other = id
  · subst same
    obtain ⟨former, stood, marks⟩ := marked.origin found
    rw [if_pos rfl, stood, Option.map_some, Option.map_some, own]
    exact congrArg some (TaskRecord.standing_withState marks terminal)
  · rw [if_neg same, others other same]
    exact marked other

/-- To name a task that has ended, or none of the account, marks nothing. -/
theorem rename (marked : Marked named account later) {named' : String → Bool}
    (others : ∀ other record, account.tasks.get? other = some record →
      named' other = named other ∨ record.state.isTerminal = true) :
    Marked named' account later := by
  intro other
  rw [marked other]
  cases stood : account.tasks.get? other with
  | none => rfl
  | some record =>
      rw [Option.map_some, Option.map_some]
      rcases others other record stood with same | ended
      · rw [same]
      · rw [TaskRecord.marked_of_ended ended, TaskRecord.marked_of_ended ended]

end Marked

end JobAccount

namespace Accountant

variable {accountant : Accountant} {job id node : String} {account : JobAccount}
  {record : TaskRecord} {state : TaskState}

/-- Noting the end of a task that has not ended rewrites its account, and takes it off the load. -/
theorem apply_of_running (kept : accountant.account? job = some account)
    (found : account.tasks.get? id = some record) (running : record.state.isTerminal = false)
    (state : TaskState) :
    accountant.apply job id state =
      ((accountant.setAccount job { account with
          tasks := account.tasks.insert id { record with state := state } }).release record.node 1,
        .updated) := by
  rw [apply, recordOnly, get?_of_account? kept, Option.getD_some, JobAccount.record, found]
  simp [running]

/-- Noting the end of a task that has ended, or is not accounted, changes nothing. -/
theorem apply_of_stale (kept : accountant.account? job = some account)
    (stale : ∀ record, account.tasks.get? id = some record → record.state.isTerminal = true)
    (state : TaskState) :
    (accountant.apply job id state).1 = accountant ∧
      (accountant.apply job id state).2 ≠ .updated := by
  rw [apply, recordOnly, get?_of_account? kept, Option.getD_some, JobAccount.record]
  cases found : account.tasks.get? id with
  | none => simp
  | some record => simp [stale record found]

/-- Retiring a job whose tasks have ended takes nothing off the loads. -/
theorem retire_of_ended (kept : accountant.account? job = some account)
    (ended : account.allTerminal = true) :
    accountant.retire job job = { accountant with
      jobs := accountant.jobs.erase job
      retired := accountant.retired.insert job () } := by
  rw [retire, kept]
  dsimp only
  rw [JobAccount.outstanding_of_ended ended, setAccount, SortedMap.erase_insert]
  rfl

/-- Closing an account changes no other one. -/
theorem account?_of_erase {after : Accountant} (jobs : after.jobs = accountant.jobs.erase job)
    (other : String) :
    after.account? other = if other = job then none else accountant.account? other := by
  rw [account?, jobs, SortedMap.get?_erase]
  by_cases same : other = job
  · rw [if_pos same, if_pos same]
  · rw [if_neg same, if_neg same]
    rfl

end Accountant

end MediaHarvest
