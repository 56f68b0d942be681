import MediaHarvest.Proofs.Accounting.Loads

/-!
# Runs of an accountant

A run is any sequence of calls, for whatever jobs, tasks and nodes.  `Effect` says of each call what
it may do to the accounts, so that what holds after every run is shown case by case: loads are
right, a retired job has no account and gets none, and a task that has ended stays as it is until
it is forgotten.
-/

namespace MediaHarvest

/-- A call of the accountant.  The end of a task is one of the two that a report can tell of. -/
inductive AccountingCall where
  | assign (job id : String) (task : Task) (node : String)
  | markRunning (job id : String)
  | recordCompletion (job id : String) (verdict : Verdict)
  /-- The end of a task is noted by someone who holds the account. -/
  | apply (job id : String) (verdict : Verdict)
  | withdraw (job id : String)
  /-- The account of a job is closed, under the name of the job, by someone who holds it. -/
  | retire (job : String)
  | removeJob (job : String)

namespace AccountingCall

/-- Makes a call; one that is refused changes nothing. -/
def perform (call : AccountingCall) (accountant : Accountant) : Accountant :=
  match call with
  | assign job id task node =>
      match accountant.assign job id task node with
      | .ok after => after
      | .error _ => accountant
  | markRunning job id => accountant.markRunning job id
  | recordCompletion job id verdict => (accountant.recordCompletion job id verdict.taskState).1
  | apply job id verdict => (accountant.apply job id verdict.taskState).1
  | withdraw job id => accountant.withdraw job id
  | retire job => accountant.retire job job
  | removeJob job => accountant.removeJob job

/-- Whether a call takes a task out of the accounts: it withdraws the task or closes its job. -/
def Forgets (call : AccountingCall) (job id : String) : Prop :=
  match call with
  | withdraw other task => other = job ∧ task = id
  | retire other | removeJob other => other = job
  | _ => False

end AccountingCall

namespace Accountant

variable {accountant after : Accountant} {job id node : String} {task : Task}
  {account written : JobAccount} {record : TaskRecord} {call : AccountingCall}

/-- Makes calls one after another. -/
def run (calls : List AccountingCall) (accountant : Accountant) : Accountant :=
  calls.foldl (fun accountant call => call.perform accountant) accountant

/-! ## What a call does to the accounts -/

/-- What a call may do. -/
inductive Effect (accountant after : Accountant) (call : AccountingCall) : Prop where
  | idle (same : after = accountant)
  /-- It rewrites an account, in which what has ended stays unless it is forgotten. -/
  | rewritten {job : String} {written : JobAccount}
      (change : Rewritten accountant after job written)
      (steady : ∀ id record, accountant.task? job id = some record →
        record.state.isTerminal = true → ¬ call.Forgets job id →
        written.tasks.get? id = some record)
  /-- It closes an account and forgets all of its tasks. -/
  | closed {job : String} (change : Closed accountant after job)
      (forgets : ∀ id, call.Forgets job id)

/-- A task that is accounted stays as it is. -/
theorem assign_of_present (sound : accountant.Sound)
    (present : accountant.hasTask job id = true) (task : Task) (node : String) :
    accountant.assign job id task node = .ok accountant := by
  obtain ⟨record, found⟩ := hasTask_eq_true_iff.1 present
  rw [task?_eq] at found
  obtain ⟨account, kept, found⟩ := Option.bind_eq_some_iff.1 found
  have contained : account.tasks.contains id = true := by
    rw [SortedMap.contains, found]
    rfl
  rw [assign, if_neg (by rw [sound.active_of_kept kept]; decide), get?_of_account? kept]
  simp [removed_of_kept kept, contained]

theorem effect_assign (sound : accountant.Sound) (job id : String) (task : Task) (node : String) :
    Effect accountant ((AccountingCall.assign job id task node).perform accountant)
      (.assign job id task node) := by
  rw [AccountingCall.perform]
  by_cases retired : accountant.retired.contains job = true
  · rw [assign_of_retired retired]
    exact .idle rfl
  · by_cases present : accountant.hasTask job id = true
    · rw [assign_of_present sound present]
      exact .idle rfl
    · have active : accountant.retired.contains job = false := by simpa using retired
      have missing : accountant.hasTask job id = false := by simpa using present
      obtain ⟨after, assigned, change⟩ := assign_of_new sound active missing task node
      rw [assigned]
      refine .rewritten change fun other record found _ _ => ?_
      have differ : other ≠ id := by
        rintro rfl
        rw [hasTask_eq_false_iff.1 missing] at found
        cases found
      rw [entered, SortedMap.get?_insert, if_neg differ]
      obtain ⟨account, kept, stands⟩ := Option.bind_eq_some_iff.1 found
      rw [kept]
      exact stands

theorem effect_markRunning (sound : accountant.Sound) (job id : String) :
    Effect accountant (accountant.markRunning job id) (.markRunning job id) := by
  rw [markRunning]
  split
  · exact .idle rfl
  · next account kept =>
    split
    · next record found =>
      split
      · next pending =>
        have isOpen := removed_of_kept kept
        let running : JobAccount :=
          { account with tasks := account.tasks.insert id { record with state := .running } }
        have change : Rewritten accountant (accountant.setAccount job running) job running :=
          rewritten_of_insert sound isOpen (sound.active_of_kept kept) rfl rfl rfl
        refine .rewritten change fun other ended stands terminal _ => ?_
        rw [task?_of_kept kept] at stands
        have differ : other ≠ id := by
          rintro rfl
          rw [found] at stands
          cases stands
          rw [pending] at terminal
          cases terminal
        rw [SortedMap.get?_insert, if_neg differ]
        exact stands
      · exact .idle rfl
    · exact .idle rfl

/-- Noting an end leaves what has ended before as it is. -/
theorem effect_apply (sound : accountant.Sound) (job id : String) (state : TaskState)
    (call : AccountingCall) : Effect accountant (accountant.apply job id state).1 call := by
  cases kept : accountant.account? job with
  | none =>
      rw [apply_of_gone sound kept]
      exact .idle rfl
  | some account =>
      obtain ⟨written, change, noted⟩ := rewritten_apply sound kept id state
      refine .rewritten change fun other record found terminal _ => ?_
      rw [task?_of_kept kept] at found
      rw [noted.tasks, found]
      split
      · rw [Option.map_some, TaskRecord.ended, if_pos terminal]
      · rfl

theorem effect_withdraw (sound : accountant.Sound) (job id : String) :
    Effect accountant (accountant.withdraw job id) (.withdraw job id) := by
  cases kept : accountant.account? job with
  | none =>
      rw [withdraw, kept]
      exact .idle rfl
  | some account =>
      cases found : account.tasks.get? id with
      | none =>
          rw [withdraw, kept]
          simp only [found]
          exact .idle rfl
      | some record =>
          have present : account.tasks.contains id = true := by
            rw [SortedMap.contains, found]
            rfl
          have change := rewritten_withdraw sound kept present
          refine .rewritten change fun other ended stands _ remembered => ?_
          have differ : other ≠ id := fun same => remembered ⟨rfl, same.symm⟩
          rw [task?_of_kept kept] at stands
          rw [SortedMap.get?_erase, if_neg differ]
          exact stands

/-- Every call does one of the listed things. -/
theorem effect (sound : accountant.Sound) (call : AccountingCall) :
    Effect accountant (call.perform accountant) call := by
  cases call with
  | assign job id task node => exact effect_assign sound job id task node
  | markRunning job id => exact effect_markRunning sound job id
  | recordCompletion job id verdict =>
      rw [AccountingCall.perform, recordCompletion]
      split
      · exact .idle rfl
      · exact effect_apply sound job id verdict.taskState _
  | apply job id verdict => exact effect_apply sound job id verdict.taskState _
  | withdraw job id => exact effect_withdraw sound job id
  | retire job =>
      cases kept : accountant.account? job with
      | none =>
          rw [AccountingCall.perform, retire, kept]
          exact .idle rfl
      | some account => exact .closed (closed_retire sound kept) fun _ => rfl
  | removeJob job => exact .closed (closed_removeJob sound job) fun _ => rfl

theorem Effect.sound (effect : Effect accountant after call) (sound : accountant.Sound) :
    after.Sound := by
  cases effect with
  | idle same => exact same ▸ sound
  | rewritten change => exact change.sound
  | closed change => exact change.sound

/-- A retired job stays retired. -/
theorem Effect.retired (effect : Effect accountant after call)
    (gone : accountant.retired.contains job = true) : after.retired.contains job = true := by
  cases effect with
  | idle same => exact same ▸ gone
  | rewritten change => exact change.retired ▸ gone
  | closed change => rw [change.retired, gone, Bool.or_true]

/-- A task that has ended stays as it is unless it is forgotten. -/
theorem Effect.task? (effect : Effect accountant after call)
    (found : accountant.task? job id = some record) (ended : record.state.isTerminal = true)
    (remembered : ¬ call.Forgets job id) : after.task? job id = some record := by
  cases effect with
  | idle same => exact same ▸ found
  | @rewritten other written change steady =>
      rw [change.task?]
      split
      · next same =>
        subst same
        exact steady id record found ended remembered
      · exact found
  | @closed other change forgets =>
      rw [change.task?]
      split
      · next same =>
        subst same
        exact absurd (forgets id) remembered
      · exact found

theorem Balanced.perform (balanced : accountant.Balanced) (call : AccountingCall) :
    (call.perform accountant).Balanced := by
  cases call with
  | assign job id task node =>
      rw [AccountingCall.perform]
      split
      · next after done => exact balanced.assign done
      · exact balanced
  | markRunning job id => exact balanced.markRunning job id
  | recordCompletion job id verdict =>
      rw [AccountingCall.perform, recordCompletion]
      split
      · exact balanced
      · exact balanced.apply job id verdict.taskState_isTerminal
  | apply job id verdict => exact balanced.apply job id verdict.taskState_isTerminal
  | withdraw job id => exact balanced.withdraw job id
  | retire job => exact balanced.retire job
  | removeJob job => exact balanced.removeJob job

/-! ## Every run -/

/-- What every call of a run keeps holds after the run. -/
theorem run_keeps (holds : Accountant → Prop) (calls : List AccountingCall)
    (start : holds accountant)
    (keeps : ∀ accountant, holds accountant → ∀ call ∈ calls, holds (call.perform accountant)) :
    holds (run calls accountant) :=
  List.foldlRecOn calls _ start keeps

theorem run_sound (calls : List AccountingCall) (sound : accountant.Sound) :
    (run calls accountant).Sound :=
  run_keeps Sound calls sound fun _ sound call _ => (effect sound call).sound sound

theorem run_balanced (calls : List AccountingCall) (balanced : accountant.Balanced) :
    (run calls accountant).Balanced :=
  run_keeps Balanced calls balanced fun _ balanced call _ => balanced.perform call

theorem run_retired (calls : List AccountingCall) (sound : accountant.Sound)
    (gone : accountant.retired.contains job = true) :
    (run calls accountant).retired.contains job = true := by
  refine (run_keeps (fun accountant => accountant.Sound ∧
    accountant.retired.contains job = true) calls ⟨sound, gone⟩ ?_).2
  rintro accountant ⟨sound, gone⟩ call -
  have step := effect sound call
  exact ⟨step.sound sound, step.retired gone⟩

theorem run_task? (calls : List AccountingCall) (sound : accountant.Sound)
    (found : accountant.task? job id = some record) (ended : record.state.isTerminal = true)
    (remembered : ∀ call ∈ calls, ¬ call.Forgets job id) :
    (run calls accountant).task? job id = some record := by
  refine (run_keeps (fun accountant => accountant.Sound ∧
    accountant.task? job id = some record) calls ⟨sound, found⟩ ?_).2
  rintro accountant ⟨sound, found⟩ call mem
  have step := effect sound call
  exact ⟨step.sound sound, step.task? found ended (remembered call mem)⟩

/-- What accounts owe, whatever is called next. -/
structure WellKept (accountant : Accountant) : Prop where
  /-- The load of a node is the number of its tasks, over all jobs, that have not ended. -/
  load : ∀ node, accountant.load node = accountant.outstandingOn node
  /-- A task that has not ended is on the load of its node, so it can be taken off. -/
  one : ∀ job id record, accountant.task? job id = some record →
    record.state.isTerminal = false → 1 ≤ accountant.load record.node
  /-- So are all tasks of a job together. -/
  whole : ∀ job account node, accountant.account? job = some account →
    account.outstandingOn node ≤ accountant.load node
  /-- No job is both accounted and retired. -/
  apart : ∀ job, ¬ (accountant.jobs.contains job = true ∧ accountant.retired.contains job = true)
  /-- No task of a retired job is accounted, and the attempt changes nothing. -/
  refused : ∀ job id task node, accountant.retired.contains job = true →
    accountant.assign job id task node = .error (.unknownJob job) ∧
      (AccountingCall.assign job id task node).perform accountant = accountant
  /-- A retired job stays retired. -/
  retired : ∀ calls job, accountant.retired.contains job = true →
    (run calls accountant).retired.contains job = true
  /-- A task that has ended stays as it is until it is withdrawn or its job closed. -/
  ended : ∀ calls job id record, accountant.task? job id = some record →
    record.state.isTerminal = true → (∀ call ∈ calls, ¬ call.Forgets job id) →
    (run calls accountant).task? job id = some record

/-- Accounts are well kept after every run. -/
theorem wellKept_run (calls : List AccountingCall) : WellKept (run calls .empty) := by
  have sound := run_sound calls sound_empty
  have balanced := run_balanced calls balanced_empty
  generalize run calls .empty = accountant at sound balanced
  constructor
  · exact balanced
  · intro job id record found running
    obtain ⟨account, kept, found⟩ := Option.bind_eq_some_iff.1 found
    exact balanced.one_le_load (get?_of_account? kept) found running
  · intro job account node kept
    exact balanced.outstandingOn_le_load (get?_of_account? kept) node
  · rintro job ⟨registered, gone⟩
    rw [SortedMap.contains, sound.apart gone] at registered
    cases registered
  · intro job id task node gone
    have refusal : accountant.assign job id task node = .error (.unknownJob job) :=
      assign_of_retired gone
    rw [AccountingCall.perform, refusal]
    exact ⟨rfl, rfl⟩
  · exact fun calls job gone => run_retired calls sound gone
  · intro calls job id record found ended remembered
    exact run_task? calls sound found ended remembered

end Accountant

end MediaHarvest
