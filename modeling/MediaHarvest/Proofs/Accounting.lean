import MediaHarvest.Accounting
import MediaHarvest.Proofs.SortedMap

/-!
# What the accountant changes

Every operation of the accountant either rewrites one account or closes one, and touches nothing of
any other job.  Throughout, kept accounts are open and retired jobs have none (`Sound`).
-/

namespace MediaHarvest

/-- The record of a task after a report of its end: what has ended keeps its state. -/
def TaskRecord.ended (record : TaskRecord) (state : TaskState) : TaskRecord :=
  if record.state.isTerminal then record else { record with state := state }

/-- A report always leaves its task in a state in which it has ended. -/
theorem Verdict.taskState_isTerminal (verdict : Verdict) : verdict.taskState.isTerminal = true := by
  cases verdict <;> rfl

@[simp]
theorem TaskRecord.ended_task (record : TaskRecord) (state : TaskState) :
    (record.ended state).task = record.task := by
  rw [ended]
  split <;> rfl

theorem TaskRecord.ended_isTerminal {record : TaskRecord} {state : TaskState}
    (terminal : state.isTerminal = true) : (record.ended state).state.isTerminal = true := by
  rw [ended]
  split
  · assumption
  · exact terminal

/-- An account has ended if each of its tasks has. -/
theorem JobAccount.allTerminal_iff {account : JobAccount} :
    account.allTerminal = true ↔
      ∀ task record, account.tasks.get? task = some record → record.state.isTerminal = true := by
  rw [allTerminal, states, List.all_map, List.all_eq_true]
  constructor
  · intro all task record found
    exact all record (SortedMap.mem_values_iff.2 ⟨task, found⟩)
  · intro all record mem
    obtain ⟨task, found⟩ := SortedMap.mem_values_iff.1 mem
    exact all task record found

/-- Nothing is outstanding in an account that has ended. -/
theorem JobAccount.outstanding_of_ended {account : JobAccount}
    (ended : account.allTerminal = true) : account.outstanding = [] := by
  refine List.filter_eq_nil_iff.2 fun record mem => ?_
  obtain ⟨task, found⟩ := SortedMap.mem_values_iff.1 mem
  rw [allTerminal_iff.1 ended task record found]
  decide

namespace Accountant

variable {accountant after : Accountant} {job id node : String} {task : Task}
  {account written : JobAccount} {state : TaskState}

/-! ## Loads -/

@[simp]
theorem release_jobs (accountant : Accountant) (node : String) (count : Nat) :
    (accountant.release node count).jobs = accountant.jobs := by
  rw [release]
  split <;> rfl

@[simp]
theorem release_retired (accountant : Accountant) (node : String) (count : Nat) :
    (accountant.release node count).retired = accountant.retired := by
  rw [release]
  split <;> rfl

@[simp]
theorem release_holder (accountant : Accountant) (node : String) (count : Nat) :
    (accountant.release node count).holder = accountant.holder := by
  rw [release]
  split <;> rfl

theorem releaseAll_same (records : List TaskRecord) (accountant : Accountant) :
    (accountant.releaseAll records).jobs = accountant.jobs ∧
      (accountant.releaseAll records).retired = accountant.retired ∧
      (accountant.releaseAll records).holder = accountant.holder := by
  induction records generalizing accountant with
  | nil => exact ⟨rfl, rfl, rfl⟩
  | cons record records ih =>
      obtain ⟨jobs, retired, holder⟩ := ih (accountant.release record.node 1)
      rw [releaseAll, List.foldl_cons]
      exact ⟨jobs.trans (release_jobs ..), retired.trans (release_retired ..),
        holder.trans (release_holder ..)⟩

/-! ## Accountants in order -/

/-- Every account that is kept is open, and a retired job has none. -/
structure Sound (accountant : Accountant) : Prop where
  opened : ∀ {job account}, accountant.jobs.get? job = some account → account.removed = false
  apart : ∀ {job}, accountant.retired.contains job = true → accountant.jobs.get? job = none

theorem sound_empty : empty.Sound where
  opened := by
    rintro job account ⟨⟩
  apart := fun _ => rfl

/-- The account of a job is the one that is kept. -/
theorem Sound.account?_eq (sound : accountant.Sound) (job : String) :
    accountant.account? job = accountant.jobs.get? job := by
  rw [account?]
  split
  · next account kept =>
    rw [if_neg (by rw [sound.opened kept]; decide), kept]
  · next missing => exact missing.symm

/-- One account was written; nothing else is touched but loads. -/
structure Rewritten (accountant after : Accountant) (job : String) (written : JobAccount) :
    Prop where
  is : after.account? job = some written
  others : ∀ other, other ≠ job → after.account? other = accountant.account? other
  retired : after.retired = accountant.retired
  holder : after.holder = accountant.holder
  /-- The accountant is in order. -/
  sound : after.Sound

/-- The account of a job was closed for good; nothing else is touched but loads. -/
structure Closed (accountant after : Accountant) (job : String) : Prop where
  gone : after.account? job = none
  others : ∀ other, other ≠ job → after.account? other = accountant.account? other
  /-- The job is retired, and no other that was not. -/
  retired : ∀ other,
    after.retired.contains other = (decide (other = job) || accountant.retired.contains other)
  holder : after.holder = accountant.holder
  /-- The accountant is in order. -/
  sound : after.Sound

theorem Rewritten.refl (sound : accountant.Sound) (kept : accountant.account? job = some account) :
    Rewritten accountant accountant job account :=
  ⟨kept, fun _ _ => rfl, rfl, rfl, sound⟩

/-- An account that is written once more is written. -/
theorem Rewritten.trans {middle : Accountant} {former : JobAccount}
    (first : Rewritten accountant middle job former) (second : Rewritten middle after job written) :
    Rewritten accountant after job written where
  is := second.is
  others := fun other differ => (second.others other differ).trans (first.others other differ)
  retired := second.retired.trans first.retired
  holder := second.holder.trans first.holder
  sound := second.sound

/-- Writing an open account of a job that is not retired, whatever becomes of the loads. -/
theorem rewritten_of_insert (sound : accountant.Sound) (isOpen : written.removed = false)
    (active : accountant.retired.contains job = false)
    (jobs : after.jobs = accountant.jobs.insert job written)
    (retired : after.retired = accountant.retired) (holder : after.holder = accountant.holder) :
    Rewritten accountant after job written := by
  have kept (other : String) : after.jobs.get? other =
      if other = job then some written else accountant.jobs.get? other := by
    rw [jobs, SortedMap.get?_insert]
  have sound' : after.Sound := by
    constructor
    · intro other account found
      rw [kept] at found
      split at found
      · cases found
        exact isOpen
      · exact sound.opened found
    · intro other gone
      rw [retired] at gone
      have differ : other ≠ job := by
        rintro rfl
        rw [active] at gone
        cases gone
      rw [kept, if_neg differ]
      exact sound.apart gone
  refine ⟨?_, ?_, retired, holder, sound'⟩
  · rw [sound'.account?_eq, kept, if_pos rfl]
  · intro other differ
    rw [sound'.account?_eq, kept, if_neg differ, sound.account?_eq]

/-- A job with an account is not retired. -/
theorem Sound.active_of_kept (sound : accountant.Sound)
    (kept : accountant.account? job = some account) :
    accountant.retired.contains job = false := by
  rw [sound.account?_eq] at kept
  cases retired : accountant.retired.contains job with
  | false => rfl
  | true =>
      rw [sound.apart retired] at kept
      cases kept

/-- An account that is kept is open. -/
theorem removed_of_kept (kept : accountant.account? job = some account) :
    account.removed = false := by
  rw [account?] at kept
  split at kept
  · split at kept
    · cases kept
    · next isOpen =>
      cases kept
      simpa using isOpen
  · cases kept

/-- Writing an open account changes no other one. -/
theorem account?_of_insert (jobs : after.jobs = accountant.jobs.insert job written)
    (isOpen : written.removed = false) (other : String) :
    after.account? other = if other = job then some written else accountant.account? other := by
  rw [account?, jobs, SortedMap.get?_insert]
  by_cases same : other = job
  · simp [same, isOpen]
  · rw [if_neg same, if_neg same]
    rfl

/-! ## Tasks -/

theorem task?_eq (accountant : Accountant) (job id : String) :
    accountant.task? job id = (accountant.account? job).bind fun account => account.tasks.get? id :=
  rfl

theorem Rewritten.task? (change : Rewritten accountant after job written) (other id : String) :
    after.task? other id =
      if other = job then written.tasks.get? id else accountant.task? other id := by
  rw [task?_eq, task?_eq]
  split
  · next same =>
    rw [same, change.is]
    rfl
  · next differ => rw [change.others other differ]

/-- A task of a kept account, seen from the accountant. -/
theorem task?_of_kept (kept : accountant.account? job = some account) (id : String) :
    accountant.task? job id = account.tasks.get? id := by
  rw [task?_eq, kept]
  rfl

theorem Closed.task? (change : Closed accountant after job) (other id : String) :
    after.task? other id = if other = job then none else accountant.task? other id := by
  rw [task?_eq, task?_eq]
  split
  · next same =>
    rw [same, change.gone]
    rfl
  · next differ => rw [change.others other differ]

/-- A task with a record is that of a kept account. -/
theorem hasTask_eq_true_iff :
    accountant.hasTask job id = true ↔ ∃ record, accountant.task? job id = some record :=
  Option.isSome_iff_exists

theorem hasTask_eq_false_iff :
    accountant.hasTask job id = false ↔ accountant.task? job id = none := by
  rw [hasTask, Option.isSome_eq_false_iff, Option.isNone_iff_eq_none]

/-! ## Operations -/

/-- The account of a job with a further task. -/
def entered (accountant : Accountant) (job id : String) (task : Task) (node : String) :
    JobAccount :=
  ⟨((accountant.account? job).getD .empty).tasks.insert id ⟨task, node, .pending⟩, false⟩

/-- A task that is not accounted is entered, unless its job is retired. -/
theorem assign_of_new (sound : accountant.Sound)
    (active : accountant.retired.contains job = false)
    (missing : accountant.hasTask job id = false) (task : Task) (node : String) :
    ∃ after, accountant.assign job id task node = .ok after ∧
      Rewritten accountant after job (accountant.entered job id task node) := by
  have isOpen : ((accountant.account? job).getD .empty).removed = false := by
    cases kept : accountant.account? job with
    | none => rfl
    | some account => exact removed_of_kept kept
  have absent : ((accountant.account? job).getD .empty).tasks.contains id = false := by
    rw [hasTask, task?_eq] at missing
    cases kept : accountant.account? job with
    | none => rfl
    | some account =>
        rw [kept] at missing
        exact missing
  rw [assign, ← sound.account?_eq]
  simp only [active, isOpen, absent, Bool.false_eq_true, if_false]
  exact ⟨_, rfl, rewritten_of_insert sound rfl active rfl rfl rfl⟩

/-- No task of a retired job is entered. -/
theorem assign_of_retired (retired : accountant.retired.contains job = true) :
    accountant.assign job id task node = .error (.unknownJob job) := by
  rw [assign, if_pos retired]

/-- An account after a report of the end of a task. -/
structure Noted (account written : JobAccount) (id : String) (state : TaskState) : Prop where
  tasks : ∀ other, written.tasks.get? other =
    if other = id then (account.tasks.get? other).map (·.ended state)
    else account.tasks.get? other
  keys : ∀ other, written.tasks.contains other = account.tasks.contains other

/-- Exactly the tasks that were accounted before still are. -/
theorem Rewritten.hasTask_of_noted (change : Rewritten accountant after job written)
    (kept : accountant.account? job = some account) (noted : Noted account written id state)
    (other : String) : after.hasTask job other = accountant.hasTask job other := by
  rw [hasTask, hasTask, change.task?, if_pos rfl, task?_eq, kept]
  exact noted.keys other

/-- A report is noted in the account of its job. -/
theorem rewritten_apply (sound : accountant.Sound)
    (kept : accountant.account? job = some account) (id : String) (state : TaskState) :
    ∃ written, Rewritten accountant (accountant.apply job id state).1 job written ∧
      Noted account written id state := by
  have present : (accountant.jobs.get? job).getD .empty = account := by
    rw [← sound.account?_eq, kept]
    rfl
  rw [apply, recordOnly]
  simp only [present]
  rw [JobAccount.record]
  cases found : account.tasks.get? id with
  | none =>
      refine ⟨account, .refl sound kept, ?_, fun _ => rfl⟩
      intro other
      split
      · next same =>
        rw [same, found]
        rfl
      · rfl
  | some record =>
      dsimp only
      by_cases ended : record.state.isTerminal = true
      · simp only [ended, if_true]
        refine ⟨account, .refl sound kept, ?_, fun _ => rfl⟩
        intro other
        split
        · next same => rw [same, found, Option.map_some, TaskRecord.ended, if_pos ended]
        · rfl
      · have isOpen := removed_of_kept kept
        simp only [ended, if_false, Bool.false_eq_true]
        refine ⟨{ account with tasks := account.tasks.insert id { record with state := state } },
          rewritten_of_insert sound isOpen (sound.active_of_kept kept)
            (release_jobs ..) (release_retired ..) (release_holder ..), ?_, ?_⟩
        · intro other
          rw [SortedMap.get?_insert]
          split
          · next same => rw [same, found, Option.map_some, TaskRecord.ended, if_neg ended]
          · rfl
        · intro other
          rw [SortedMap.contains, SortedMap.contains, SortedMap.get?_insert]
          split
          · next same =>
            rw [same, found]
            rfl
          · rfl

/-- A report for a job without an account changes nothing. -/
theorem apply_of_gone (sound : accountant.Sound) (gone : accountant.account? job = none)
    (id : String) (state : TaskState) :
    accountant.apply job id state = (accountant, .unknown) := by
  rw [sound.account?_eq] at gone
  rw [apply, recordOnly, gone]
  rfl

/-- A task is withdrawn from the account of its job. -/
theorem rewritten_withdraw (sound : accountant.Sound)
    (kept : accountant.account? job = some account) (found : account.tasks.contains id = true) :
    Rewritten accountant (accountant.withdraw job id) job
      { account with tasks := account.tasks.erase id } := by
  obtain ⟨record, found⟩ := Option.isSome_iff_exists.1 found
  rw [withdraw]
  simp only [kept, found]
  have isOpen := removed_of_kept kept
  have active := sound.active_of_kept kept
  split
  · exact rewritten_of_insert sound isOpen active rfl rfl rfl
  · exact rewritten_of_insert sound isOpen active (release_jobs ..) (release_retired ..)
      (release_holder ..)

/-- A job is retired. -/
theorem closed_of_erase (sound : accountant.Sound)
    (jobs : ∀ other, after.jobs.get? other =
      if other = job then none else accountant.jobs.get? other)
    (retired : after.retired = accountant.retired.insert job ())
    (holder : after.holder = accountant.holder) : Closed accountant after job := by
  have retired' (other : String) : after.retired.contains other =
      (decide (other = job) || accountant.retired.contains other) := by
    rw [retired, SortedMap.contains, SortedMap.contains, SortedMap.get?_insert]
    by_cases same : other = job <;> simp [same]
  have sound' : after.Sound := by
    constructor
    · intro other account found
      rw [jobs] at found
      split at found
      · cases found
      · exact sound.opened found
    · intro other gone
      rw [jobs]
      split
      · rfl
      · next differ =>
        rw [retired', decide_eq_false differ, Bool.false_or] at gone
        exact sound.apart gone
  refine ⟨?_, ?_, retired', holder, sound'⟩
  · rw [sound'.account?_eq, jobs, if_pos rfl]
  · intro other differ
    rw [sound'.account?_eq, jobs, if_neg differ, sound.account?_eq]

theorem closed_retire (sound : accountant.Sound)
    (kept : accountant.account? job = some account) :
    Closed accountant (accountant.retire job job) job := by
  rw [retire]
  simp only [kept]
  obtain ⟨jobs, retired, holder⟩ := releaseAll_same account.outstanding
    { accountant.setAccount job ⟨∅, true⟩ with
      jobs := (accountant.setAccount job ⟨∅, true⟩).jobs.erase job
      retired := (accountant.setAccount job ⟨∅, true⟩).retired.insert job () }
  refine closed_of_erase sound ?_ retired holder
  intro other
  rw [jobs, SortedMap.get?_erase, setAccount, SortedMap.get?_insert]
  split <;> rfl

theorem closed_removeJob (sound : accountant.Sound) (job : String) :
    Closed accountant (accountant.removeJob job) job := by
  rw [removeJob]
  cases kept : accountant.account? job with
  | some account => exact closed_retire sound kept
  | none =>
      refine closed_of_erase sound (fun other => ?_) rfl rfl
      by_cases same : other = job
      · rw [if_pos same, same]
        exact (sound.account?_eq job).symm.trans kept
      · rw [if_neg same]

end Accountant

end MediaHarvest
