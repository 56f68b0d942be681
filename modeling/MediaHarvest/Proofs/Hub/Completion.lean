import MediaHarvest.Hub.Completion
import MediaHarvest.Proofs.Hub.Basic

/-!
# What a report can do

`Finishing` lists the ends of the question whether a job is finished, each with the state it leaves
behind.  A report is first noted in the account of its job, then the question is asked.
-/

namespace MediaHarvest

open Ledger Accountant

namespace Hub

variable {hub after : Hub} {id : String} {now : Instant}

/-! ## The question whether a job is finished -/

/-- What the question whether a job is finished can come to. -/
inductive Finishing (hub : Hub) (id : String) (now : Instant) :
    Hub → Except CompletionError CompletionStatus → Prop where
  | ignored (gone : hub.accountant.account? id = none) : Finishing hub id now hub (.ok .ignored)
  | outstanding {account : JobAccount} (kept : hub.accountant.account? id = some account)
      (running : account.allTerminal = false) : Finishing hub id now hub (.ok .pending)
  /-- Fewer tasks are accounted than the job plans. -/
  | partly {account : JobAccount} {job : Job} (kept : hub.accountant.account? id = some account)
      (ended : account.allTerminal = true) (found : hub.ledger.job? id = .ok (some job))
      (few : account.tasks.size < job.tasks.length) : Finishing hub id now hub (.ok .pending)
  /-- The job is missing or cannot be read. -/
  | refused {account : JobAccount} {error : LedgerError}
      (kept : hub.accountant.account? id = some account) (ended : account.allTerminal = true)
      (missing : ∀ job, hub.ledger.job? id ≠ .ok (some job)) :
      Finishing hub id now hub (.error (.ledger error))
  | finished {account : JobAccount} {job : Job} {ledger : Ledger} {accountant : Accountant}
      (kept : hub.accountant.account? id = some account) (ended : account.allTerminal = true)
      (found : hub.ledger.job? id = .ok (some job)) (enough : job.tasks.length ≤ account.tasks.size)
      (restated : Restated hub.ledger ledger id job (job.withState .finished now))
      (closed : Closed hub.accountant accountant id) :
      Finishing hub id now
        { hub with
          ledger := ledger
          accountant := accountant
          metrics := hub.metrics.jobFinished
          announced := hub.announced ++ [id] }
        (.ok .finished)

/-- A stored job is finished. -/
theorem finish_of_stored {job : Job} {account : JobAccount} (sound : hub.accountant.Sound)
    (filed : hub.ledger.Filed) (kept : hub.accountant.account? id = some account)
    (found : hub.ledger.job? id = .ok (some job)) (now : Instant) :
    ∃ ledger, hub.finish id now = .ok { hub with
          ledger := ledger
          accountant := hub.accountant.retire id id
          metrics := hub.metrics.jobFinished
          announced := hub.announced ++ [id] } ∧
      Restated hub.ledger ledger id job (job.withState .finished now) ∧
      Closed hub.accountant (hub.accountant.retire id id) id := by
  obtain ⟨ledger, done, restated⟩ := setJobState_of_stored filed found .finished now
  refine ⟨ledger, ?_, restated, closed_retire sound kept⟩
  rw [finish, done]
  rfl

/-- A job that is not stored cannot be finished. -/
theorem finish_of_missing (missing : ∀ job, hub.ledger.job? id ≠ .ok (some job)) (now : Instant) :
    ∃ error, hub.finish id now = .error error := by
  cases written : hub.finish id now with
  | error error => exact ⟨error, rfl⟩
  | ok after =>
      rw [finish] at written
      obtain ⟨_, stored, _⟩ := bind_eq_ok_iff.1 written
      obtain ⟨job, read, _⟩ := bind_eq_ok_iff.1 stored
      exact absurd (job_eq_ok_iff.1 read) (missing job)

/-- The question whether a job is finished comes to one of the listed ends. -/
theorem finishing (sound : hub.accountant.Sound) (filed : hub.ledger.Filed) (id : String)
    (now : Instant) :
    Finishing hub id now (hub.finishIfComplete id now).1 (hub.finishIfComplete id now).2 := by
  rw [finishIfComplete]
  cases kept : hub.accountant.account? id with
  | none => exact .ignored kept
  | some account =>
      dsimp only
      by_cases ended : account.allTerminal = true
      · simp only [ended, Bool.not_true, Bool.false_eq_true, if_false]
        cases read : hub.ledger.job? id with
        | error error =>
            have missing (job : Job) : hub.ledger.job? id ≠ .ok (some job) := by
              rw [read]
              rintro ⟨⟩
            rw [plannedCount, read]
            exact .refused kept ended missing
        | ok answer =>
            cases answer with
            | none =>
                have missing (job : Job) : hub.ledger.job? id ≠ .ok (some job) := by
                  rw [read]
                  rintro ⟨⟩
                obtain ⟨error, refused⟩ := finish_of_missing missing now
                rw [plannedCount, read]
                simp only [ok_bind, pure_eq_ok, Nat.lt_irrefl, if_false, refused]
                exact .refused kept ended missing
            | some job =>
                rw [plannedCount, read]
                simp only [ok_bind, pure_eq_ok]
                by_cases few : account.tasks.size < job.tasks.length
                · rw [if_pos few]
                  exact .partly kept ended read few
                · rw [if_neg few]
                  obtain ⟨ledger, done, restated, closed⟩ :=
                    finish_of_stored sound filed kept read now
                  rw [done]
                  exact .finished kept ended read (Nat.le_of_not_lt few) restated closed
      · rw [if_pos (by simpa using ended)]
        exact .outstanding kept (by simpa using ended)

/-! ## Reports -/

/-- An account that nobody holds is there at once. -/
theorem awaitAccount_of_free (free : hub.accountant.holder = none) (id : String) :
    hub.awaitAccount id = (hub, .ok (hub.accountant.account? id)) := by
  rw [awaitAccount, isHeld, free]
  rfl

/-- A report for a job that is not accounted is counted and ignored. -/
theorem onCompletion_of_gone (free : hub.accountant.holder = none) {completion : Completion}
    (gone : hub.accountant.account? completion.job = none) (now : Instant) :
    hub.onCompletion completion now = (hub.count Metrics.eventIgnored, .ok .ignored) := by
  rw [onCompletion, awaitAccount_of_free free, gone]

/-- A report for an accounted job is noted; then it is asked whether the job is finished. -/
theorem onCompletion_of_kept (orderly : hub.Orderly) {completion : Completion}
    {account : JobAccount} (kept : hub.accountant.account? completion.job = some account)
    (now : Instant) :
    ∃ accountant metrics written,
      hub.onCompletion completion now =
          { hub with accountant := accountant, metrics := metrics }.finishIfComplete
            completion.job now ∧
        Rewritten hub.accountant accountant completion.job written ∧
        Noted account written completion.task completion.taskState ∧
        metrics.jobsFinished = hub.metrics.jobsFinished := by
  obtain ⟨written, rewritten, noted⟩ :=
    rewritten_apply orderly.sound kept completion.task completion.taskState
  rw [onCompletion, awaitAccount_of_free orderly.free, kept]
  dsimp only [applyState]
  generalize hub.accountant.apply completion.job completion.task completion.taskState = result at *
  obtain ⟨accountant, recorded⟩ := result
  cases recorded with
  | updated => exact ⟨accountant, hub.metrics, written, rfl, rewritten, noted, rfl⟩
  | duplicate =>
      exact ⟨accountant, hub.metrics.eventIgnored, written, rfl, rewritten, noted, rfl⟩
  | unknown => exact ⟨accountant, hub.metrics.eventIgnored, written, rfl, rewritten, noted, rfl⟩

/-! ## What reports leave alone -/

/-- The jobs that an answer declares finished: the one that was asked about, or none. -/
def finishedNames (id : String) : Except CompletionError CompletionStatus → List String
  | .ok .finished => [id]
  | _ => []

/-- A job was settled: its tasks only end, and go away only if it is retired.  The jobs in
`finished` were announced. -/
structure Settled (hub after : Hub) (id : String) (finished : List String) : Prop where
  touched : Touched hub after id
  announced : after.announced = hub.announced ++ finished
  counted : after.metrics.jobsFinished =
    hub.metrics.jobsFinished + UInt64.ofNat finished.length
  retired : hub.accountant.retired.contains id = true → after.accountant.retired.contains id = true
  /-- No task is accounted that was not. -/
  fewer : ∀ task, after.accountant.hasTask id task = true → hub.accountant.hasTask id task = true
  /-- A task that is not accounted any more is one of a retired job. -/
  lost : ∀ task, hub.accountant.hasTask id task = true →
    after.accountant.hasTask id task = true ∨ after.accountant.retired.contains id = true

theorem Settled.refl (orderly : hub.Orderly) (id : String) : Settled hub hub id [] where
  touched := .refl orderly id
  announced := by simp
  counted := by simp
  retired := fun gone => gone
  fewer := fun _ present => present
  lost := fun _ present => .inl present

theorem Settled.trans {middle : Hub} {first second : List String}
    (one : Settled hub middle id first) (two : Settled middle after id second) :
    Settled hub after id (first ++ second) where
  touched := one.touched.trans two.touched
  announced := by rw [two.announced, one.announced, List.append_assoc]
  counted := by
    rw [two.counted, one.counted, List.length_append, UInt64.ofNat_add, UInt64.add_assoc]
  retired := fun gone => two.retired (one.retired gone)
  fewer := fun task present => one.fewer task (two.fewer task present)
  lost := by
    intro task present
    rcases one.lost task present with kept | gone
    · exact two.lost task kept
    · exact .inr (two.retired gone)

/-- Closing the account of a job settles it. -/
theorem settled_of_closed {ledger : Ledger} {accountant : Accountant} {finished : List String}
    (orderly : hub.Orderly) (closed : Closed hub.accountant accountant id)
    (filed : ledger.Filed) (jobs : ∀ other, other ≠ id → ledger.job? other = hub.ledger.job? other)
    (ledgerEq : after.ledger = ledger) (accountantEq : after.accountant = accountant)
    (announced : after.announced = hub.announced ++ finished)
    (counted : after.metrics.jobsFinished =
      hub.metrics.jobsFinished + UInt64.ofNat finished.length) :
    Settled hub after id finished := by
  subst ledgerEq accountantEq
  have gone : after.accountant.retired.contains id = true := by simp [closed.retired]
  refine ⟨⟨⟨closed.sound, filed, closed.holder.trans orderly.free⟩, closed.others, ?_, jobs⟩,
    announced, counted, fun _ => gone, ?_, fun _ _ => .inr gone⟩
  · intro other differ
    rw [closed.retired, decide_eq_false differ, Bool.false_or]
  · intro task present
    rw [hasTask, closed.task?, if_pos rfl] at present
    cases present

theorem settled_finishIfComplete (orderly : hub.Orderly) (id : String) (now : Instant) :
    Settled hub (hub.finishIfComplete id now).1 id
      (finishedNames id (hub.finishIfComplete id now).2) := by
  have ends := finishing orderly.sound orderly.filed id now
  generalize (hub.finishIfComplete id now).1 = after at ends ⊢
  generalize (hub.finishIfComplete id now).2 = answer at ends ⊢
  cases ends with
  | ignored => exact .refl orderly id
  | outstanding => exact .refl orderly id
  | partly => exact .refl orderly id
  | refused => exact .refl orderly id
  | finished kept ended found enough restated closed =>
      exact settled_of_closed orderly closed restated.filed restated.others rfl rfl rfl rfl

/-- Counting something else than finished jobs settles nothing. -/
theorem settled_count (orderly : hub.Orderly) (id : String) {change : Metrics → Metrics}
    (uncounted : (change hub.metrics).jobsFinished = hub.metrics.jobsFinished) :
    Settled hub (hub.count change) id [] where
  touched := touched_of_same orderly rfl rfl
  announced := by simp [count]
  counted := by simpa [count] using uncounted
  retired := fun gone => gone
  fewer := fun _ present => present
  lost := fun _ present => .inl present

/-- A noted end settles its job. -/
theorem settled_of_noted {accountant : Accountant} {metrics : Metrics}
    {account written : JobAccount} {task : String} {state : TaskState} (orderly : hub.Orderly)
    (kept : hub.accountant.account? id = some account)
    (rewritten : Rewritten hub.accountant accountant id written)
    (noted : Noted account written task state)
    (uncounted : metrics.jobsFinished = hub.metrics.jobsFinished) :
    Settled hub { hub with accountant := accountant, metrics := metrics } id [] := by
  have same := rewritten.hasTask_of_noted kept noted
  refine ⟨⟨⟨rewritten.sound, orderly.filed, rewritten.holder.trans orderly.free⟩,
    rewritten.others, fun _ _ => by rw [rewritten.retired], fun _ _ => rfl⟩, by simp,
    by simpa using uncounted, ?_, ?_, ?_⟩
  · intro gone
    rw [rewritten.retired]
    exact gone
  · intro other present
    exact (same other).symm.trans present
  · intro other present
    exact .inl ((same other).trans present)

/-- Noting the end of a task settles its job. -/
theorem settled_applyState (orderly : hub.Orderly) (id task : String) (state : TaskState) :
    Settled hub (hub.applyState id task state).1 id [] := by
  rw [applyState]
  cases kept : hub.accountant.account? id with
  | none =>
      rw [apply_of_gone orderly.sound kept]
      exact .refl orderly id
  | some account =>
      obtain ⟨written, rewritten, noted⟩ := rewritten_apply orderly.sound kept task state
      exact settled_of_noted orderly kept rewritten noted rfl

/-- A report settles its job. -/
theorem settled_onCompletion (orderly : hub.Orderly) (completion : Completion) (now : Instant) :
    Settled hub (hub.onCompletion completion now).1 completion.job
      (finishedNames completion.job (hub.onCompletion completion now).2) := by
  cases kept : hub.accountant.account? completion.job with
  | none =>
      rw [onCompletion_of_gone orderly.free kept]
      exact settled_count orderly completion.job rfl
  | some account =>
      obtain ⟨accountant, metrics, written, same, rewritten, noted, uncounted⟩ :=
        onCompletion_of_kept orderly kept now
      have first := settled_of_noted orderly kept rewritten noted uncounted
      rw [same]
      exact first.trans (settled_finishIfComplete first.touched.orderly completion.job now)

theorem settled_recover (id : String) (records : List TaskRecord) (hub : Hub)
    (orderly : hub.Orderly) : Settled hub (recover id records hub).1 id [] := by
  induction records generalizing hub with
  | nil => exact .refl orderly id
  | cons record rest ih =>
      rw [recover]
      split
      · exact .refl orderly id
      · exact ih hub orderly
      · next execution found =>
        have first := settled_applyState orderly id record.task.id execution.measurements.taskState
        exact first.trans (ih _ first.touched.orderly)

/-- Looking again at a job settles it. -/
theorem settled_reconcile (orderly : hub.Orderly) (id : String) (now : Instant) :
    Settled hub (hub.reconcile id now).1 id (finishedNames id (hub.reconcile id now).2) := by
  rw [reconcile, awaitAccount_of_free orderly.free]
  cases hub.accountant.account? id with
  | none => exact .refl orderly id
  | some account =>
      dsimp only
      have first := settled_recover id account.outstanding hub orderly
      generalize recover id account.outstanding hub = result at first ⊢
      obtain ⟨middle, answer⟩ := result
      cases answer with
      | error error => exact first
      | ok _ => exact first.trans (settled_finishIfComplete first.touched.orderly id now)

/-- Removing a job settles it. -/
theorem settled_removeJob (orderly : hub.Orderly) (id : String) :
    Settled hub { hub with accountant := hub.accountant.removeJob id } id [] :=
  settled_of_closed orderly (closed_removeJob orderly.sound id) orderly.filed (fun _ _ => rfl)
    rfl rfl (by simp) (by simp)

/-! ## What is on record -/

/-- No question whether a job is finished writes an execution. -/
theorem executions_finishIfComplete (orderly : hub.Orderly) (id : String) (now : Instant) :
    (hub.finishIfComplete id now).1.ledger.executions = hub.ledger.executions := by
  have ends := finishing orderly.sound orderly.filed id now
  generalize (hub.finishIfComplete id now).1 = after at ends ⊢
  generalize (hub.finishIfComplete id now).2 = answer at ends
  cases ends with
  | finished _ _ _ _ restated _ => exact restated.executions
  | ignored => rfl
  | outstanding => rfl
  | partly => rfl
  | refused => rfl

theorem executions_onCompletion (orderly : hub.Orderly) (completion : Completion) (now : Instant) :
    (hub.onCompletion completion now).1.ledger.executions = hub.ledger.executions := by
  cases kept : hub.accountant.account? completion.job with
  | none =>
      rw [onCompletion_of_gone orderly.free kept]
      rfl
  | some account =>
      obtain ⟨accountant, metrics, written, same, rewritten, _⟩ :=
        onCompletion_of_kept orderly kept now
      have noted : Orderly { hub with accountant := accountant, metrics := metrics } :=
        ⟨rewritten.sound, orderly.filed, rewritten.holder.trans orderly.free⟩
      rw [same]
      exact executions_finishIfComplete noted completion.job now

/-- What is recovered is only noted in the accounts. -/
theorem ledger_recover (id : String) (records : List TaskRecord) (hub : Hub) :
    (recover id records hub).1.ledger = hub.ledger := by
  induction records generalizing hub with
  | nil => rfl
  | cons record rest ih =>
      rw [recover]
      split
      · rfl
      · exact ih hub
      · exact ih _

theorem executions_reconcile (orderly : hub.Orderly) (id : String) (now : Instant) :
    (hub.reconcile id now).1.ledger.executions = hub.ledger.executions := by
  rw [reconcile, awaitAccount_of_free orderly.free]
  cases hub.accountant.account? id with
  | none => rfl
  | some account =>
      dsimp only
      have same := ledger_recover id account.outstanding hub
      have settled := settled_recover id account.outstanding hub orderly
      generalize recover id account.outstanding hub = result at same settled ⊢
      obtain ⟨middle, answer⟩ := result
      cases answer with
      | error error => exact congrArg Ledger.executions same
      | ok _ =>
          exact (executions_finishIfComplete settled.touched.orderly id now).trans
            (congrArg Ledger.executions same)

end Hub

end MediaHarvest
