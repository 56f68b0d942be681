import MediaHarvest.Proofs.Hub.SentOnce
import MediaHarvest.Proofs.Hub.Undisturbed

/-!
# The life of a job

The state of a stored job takes the steps of `JobState.Next` only, and nothing else of the job but
the time of the change is ever written.  `Hub.stages` lists the hubs that a run passes through, one
for each write, so that nothing is hidden between the beginning of a call and its end.  What carries
the argument is that a job with an account is not finished: only such a job is ever finished, and
its account is closed with it.
-/

namespace MediaHarvest

open Ledger Accountant

/-! ## The steps of a state -/

/-- The steps that the state of a stored job can take. -/
inductive JobState.Next : JobState → JobState → Prop where
  | begun {state : JobState} (source : state ∈ [ready, resume]) : Next state running
  | started {state : JobState} (source : state ∈ [ready, running, pause]) : Next state resume
  | stopped {state : JobState} (source : state ∈ [ready, running, resume]) : Next state pause
  | ended {state : JobState} (unfinished : state ≠ finished) : Next state finished

/-- A finished job takes no step. -/
theorem JobState.Next.unfinished {state next : JobState} (step : state.Next next) :
    state ≠ .finished := by
  rintro rfl
  cases step with
  | begun source => exact absurd source (by decide)
  | started source => exact absurd source (by decide)
  | stopped source => exact absurd source (by decide)
  | ended unfinished => exact unfinished rfl

namespace Ledger

variable {ledger after : Ledger} {id : String} {job : Job} {now : Instant}

/-- Every job stays as it is, or takes one step; of its record, only the state and the time of the
change are written. -/
def Advances (ledger after : Ledger) : Prop :=
  ∀ id, after.job? id = ledger.job? id ∨
    ∃ job next now, ledger.job? id = .ok (some job) ∧ job.state.Next next ∧
      after.job? id = .ok (some (job.withState next now))

theorem advances_of_jobs_eq (same : after.jobs = ledger.jobs) : ledger.Advances after := by
  intro id
  left
  rw [job?, job?, same]

/-- A finished job is never written again. -/
theorem Advances.kept (advances : ledger.Advances after)
    (found : ledger.job? id = .ok (some job)) (last : job.state = .finished) :
    after.job? id = .ok (some job) := by
  rcases advances id with same | ⟨other, next, now, stored, step, _⟩
  · rw [same, found]
  · rw [found] at stored
    cases stored
    exact absurd last step.unfinished

/-- A job that was replaced by its next state took a step. -/
theorem Restated.advances {next : JobState} (step : job.state.Next next)
    (restated : Restated ledger after id job (job.withState next now)) : ledger.Advances after := by
  intro other
  by_cases same : other = id
  · subst same
    exact .inr ⟨job, next, now, restated.was, step, restated.is⟩
  · exact .inl (restated.others other same)

/-- A move between states that are steps is a step. -/
theorem Restated.advances_moved {sources : List JobState} {target : JobState}
    (steps : ∀ state ∈ sources, state.Next target)
    (restated : Restated ledger after id job (moved job sources target now)) :
    ledger.Advances after := by
  by_cases stays : job.state = target ∨ job.state ∉ sources
  · have same : moved job sources target now = job := if_pos stays
    rw [same] at restated
    intro other
    left
    by_cases own : other = id
    · rw [own, restated.is, restated.was]
    · exact restated.others other own
  · have moves : moved job sources target now = job.withState target now := if_neg stays
    rw [moves] at restated
    exact restated.advances (steps _ (not_not.1 fun outside => stays (.inr outside)))

end Ledger

namespace Hub

variable {hub middle after last : Hub} {id : String} {job : Job} {now : Instant}

/-! ## Hubs whose accounted jobs go on -/

/-- The hub is in order, and no job with an account is finished. -/
structure Alive (hub : Hub) : Prop where
  orderly : hub.Orderly
  unfinished : ∀ ⦃id account job⦄, hub.accountant.account? id = some account →
    hub.ledger.job? id = .ok (some job) → job.state ≠ .finished

/-- A hub without accounts is alive. -/
theorem alive_of_fresh (fresh : hub.accountant = .empty) (filed : hub.ledger.Filed) :
    hub.Alive where
  orderly := ⟨fresh ▸ sound_empty, filed, fresh ▸ rfl⟩
  unfinished := by
    rw [fresh]
    rintro id account job ⟨⟩

/-- One write: every job takes at most one step, and the hub stays alive. -/
structure Lives (hub after : Hub) : Prop where
  advances : hub.ledger.Advances after.ledger
  alive : after.Alive

theorem Lives.refl (alive : hub.Alive) : Lives hub hub :=
  ⟨advances_of_jobs_eq rfl, alive⟩

/-- If no job is written and no account is opened, the hub stays alive. -/
theorem lives_of_fewer (alive : hub.Alive) (orderly : after.Orderly)
    (jobs : after.ledger.jobs = hub.ledger.jobs)
    (fewer : ∀ id account, after.accountant.account? id = some account →
      ∃ former, hub.accountant.account? id = some former) : Lives hub after where
  advances := advances_of_jobs_eq jobs
  alive := by
    refine ⟨orderly, fun id account job kept found => ?_⟩
    obtain ⟨former, kept⟩ := fewer id account kept
    rw [job?, jobs] at found
    exact alive.unfinished kept found

/-- A call that writes neither jobs nor accounts. -/
theorem lives_of_same (alive : hub.Alive) (accountant : after.accountant = hub.accountant)
    (jobs : after.ledger.jobs = hub.ledger.jobs) : Lives hub after := by
  have touched : Touched hub after "" := touched_of_same alive.orderly accountant jobs
  refine lives_of_fewer alive touched.orderly jobs fun id account kept => ?_
  rw [accountant] at kept
  exact ⟨account, kept⟩

/-- A step of one job, whatever becomes of its account as long as the job is not finished. -/
theorem lives_of_touched (alive : hub.Alive) (touched : Touched hub after id)
    (advances : hub.ledger.Advances after.ledger) (found : after.ledger.job? id = .ok (some job))
    (unfinished : ∀ account, after.accountant.account? id = some account →
      job.state ≠ .finished) : Lives hub after where
  advances := advances
  alive := by
    refine ⟨touched.orderly, fun other account stored kept present => ?_⟩
    by_cases same : other = id
    · subst same
      rw [found] at present
      cases present
      exact unfinished account kept
    · rw [touched.accounts other same] at kept
      rw [touched.jobs other same] at present
      exact alive.unfinished kept present

/-! ## Each write -/

/-- A move is refused and changes nothing, or it moves the stored job. -/
theorem moving (filed : hub.ledger.Filed) (id : String) (sources : List JobState)
    (target : JobState) (now : Instant) :
    (∃ error, hub.moveJob id sources target now = (hub, .error error)) ∨
      ∃ job ledger, hub.moveJob id sources target now =
          ({ hub with ledger := ledger }, .ok (moved job sources target now)) ∧
        Restated hub.ledger ledger id job (moved job sources target now) := by
  cases done : hub.ledger.moveJob id sources target now with
  | ok result =>
      obtain ⟨job, found⟩ := Ledger.stored_of_moveJob done
      obtain ⟨ledger, moves, restated⟩ := moveJob_of_stored filed found sources target now
      exact .inr ⟨job, ledger, moves, restated⟩
  | error error =>
      left
      rw [moveJob, done]
      cases error <;> exact ⟨_, rfl⟩

theorem lives_moveJob (alive : hub.Alive) (id : String) {sources : List JobState}
    {target : JobState} (steps : ∀ state ∈ sources, state.Next target)
    (entering : target ≠ .finished) (now : Instant) :
    Lives hub (hub.moveJob id sources target now).1 := by
  rcases moving alive.orderly.filed id sources target now with
    ⟨error, refused⟩ | ⟨job, ledger, moves, restated⟩
  · rw [refused]
    exact .refl alive
  · have orderly : Orderly { hub with ledger := ledger } :=
      ⟨alive.orderly.sound, restated.filed, alive.orderly.free⟩
    have touched : Touched hub { hub with ledger := ledger } id :=
      ⟨orderly, fun _ _ => rfl, fun _ _ => rfl, restated.others⟩
    have leaving : .finished ∉ sources := fun mem => (steps _ mem).unfinished rfl
    have goes := job.continues_moved leaving entering now
    rw [moves]
    exact lives_of_touched alive touched (restated.advances_moved steps) restated.is
      fun account kept last => alive.unfinished kept restated.was (goes.finished.1 last)

theorem lives_dispatch (alive : hub.Alive) (id : String) (task : Task) (now : Instant) :
    Lives hub (hub.dispatch id task now).1 := by
  have ends := dispatching alive.orderly.sound alive.orderly.filed id task now
  have begins {job : Job} {ledger : Ledger} {accountant : Accountant} {account : JobAccount}
      {after : Hub} (accepts : job.state.acceptsDispatch = true)
      (restated : Restated hub.ledger ledger id job (job.begun now))
      (rewritten : Rewritten hub.accountant accountant id account)
      (ledgerEq : after.ledger = ledger) (accountantEq : after.accountant = accountant) :
      Lives hub after := by
    have touched :=
      touched_of_rewritten alive.orderly.free restated rewritten ledgerEq accountantEq
    subst ledgerEq
    refine lives_of_touched alive touched (restated.advances_moved fun _ source => .begun source)
      restated.is fun _ _ last => ?_
    have still : (job.begun now).state.acceptsDispatch = true :=
      Job.begun_acceptsDispatch accepts
    rw [last] at still
    cases still
  generalize (hub.dispatch id task now).1 = after at ends ⊢
  generalize (hub.dispatch id task now).2 = answer at ends
  cases ends with
  | unknown => exact .refl alive
  | held => exact .refl alive
  | assigned => exact .refl alive
  | noNodes => exact .refl alive
  | retired => exact lives_of_same alive rfl rfl
  | sent _ accepts _ _ restated rewritten _ => exact begins accepts restated rewritten rfl rfl
  | undelivered _ accepts _ _ restated rewritten _ =>
      exact begins accepts restated rewritten rfl rfl

theorem lives_finishIfComplete (alive : hub.Alive) (id : String) (now : Instant) :
    Lives hub (hub.finishIfComplete id now).1 := by
  have ends := finishing alive.orderly.sound alive.orderly.filed id now
  generalize (hub.finishIfComplete id now).1 = after at ends ⊢
  generalize (hub.finishIfComplete id now).2 = answer at ends
  cases ends with
  | ignored => exact .refl alive
  | outstanding => exact .refl alive
  | partly => exact .refl alive
  | refused => exact .refl alive
  | finished kept _ found _ restated closed =>
      have step : JobState.Next _ .finished := .ended (alive.unfinished kept found)
      refine lives_of_touched alive ⟨⟨closed.sound, restated.filed,
        closed.holder.trans alive.orderly.free⟩, closed.others,
        fun other differ => by simp [closed.retired, differ], restated.others⟩
        (restated.advances step) restated.is ?_
      intro account still
      rw [closed.gone] at still
      cases still

/-- An account that is written again opens no other one. -/
theorem lives_of_rewritten {accountant : Accountant} {account written : JobAccount}
    (alive : hub.Alive) (kept : hub.accountant.account? id = some account)
    (rewritten : Rewritten hub.accountant accountant id written) (metrics : Metrics) :
    Lives hub { hub with accountant := accountant, metrics := metrics } := by
  refine lives_of_fewer alive ?_ rfl fun other account stored => ?_
  · exact ⟨rewritten.sound, alive.orderly.filed, rewritten.holder.trans alive.orderly.free⟩
  · by_cases same : other = id
    · exact ⟨_, same ▸ kept⟩
    · exact ⟨account, (rewritten.others other same).symm.trans stored⟩

/-- What the jobs of a hub go through, those of a hub with the same jobs go through. -/
theorem Lives.of_jobs_eq (lives : Lives middle after)
    (same : middle.ledger.jobs = hub.ledger.jobs) : Lives hub after where
  alive := lives.alive
  advances := by
    intro id
    have own : middle.ledger.job? id = hub.ledger.job? id := by rw [job?, job?, same]
    rw [← own]
    exact lives.advances id

theorem lives_onCompletion (alive : hub.Alive) (completion : Completion) (now : Instant) :
    Lives hub (hub.onCompletion completion now).1 := by
  cases kept : hub.accountant.account? completion.job with
  | none =>
      rw [onCompletion_of_gone alive.orderly.free kept]
      exact lives_of_same alive rfl rfl
  | some account =>
      obtain ⟨accountant, metrics, written, same, rewritten, _⟩ :=
        onCompletion_of_kept alive.orderly kept now
      have noted := lives_of_rewritten alive kept rewritten metrics
      rw [same]
      exact (lives_finishIfComplete noted.alive completion.job now).of_jobs_eq rfl

theorem lives_applyState (alive : hub.Alive) (id task : String) (state : TaskState) :
    Lives hub (hub.applyState id task state).1 := by
  rw [applyState]
  cases kept : hub.accountant.account? id with
  | none =>
      rw [apply_of_gone alive.orderly.sound kept]
      exact .refl alive
  | some account =>
      obtain ⟨written, rewritten, _⟩ := rewritten_apply alive.orderly.sound kept task state
      exact lives_of_rewritten alive kept rewritten hub.metrics

theorem alive_recover (id : String) (records : List TaskRecord) (hub : Hub) (alive : hub.Alive) :
    (recover id records hub).1.Alive := by
  induction records generalizing hub with
  | nil => exact alive
  | cons record rest ih =>
      rw [recover]
      split
      · exact alive
      · exact ih hub alive
      · exact ih _ (lives_applyState alive ..).alive

theorem lives_reconcile (alive : hub.Alive) (id : String) (now : Instant) :
    Lives hub (hub.reconcile id now).1 := by
  rw [reconcile, awaitAccount_of_free alive.orderly.free]
  cases hub.accountant.account? id with
  | none => exact .refl alive
  | some account =>
      dsimp only
      have ledger := ledger_recover id account.outstanding hub
      have further := alive_recover id account.outstanding hub alive
      generalize recover id account.outstanding hub = result at ledger further ⊢
      obtain ⟨recovered, answer⟩ := result
      dsimp only at ledger further
      have looked : Lives hub recovered := ⟨advances_of_jobs_eq (by rw [ledger]), further⟩
      cases answer with
      | error error => exact looked
      | ok done =>
          exact (lives_finishIfComplete further id now).of_jobs_eq (by rw [ledger])

theorem lives_removeJob (alive : hub.Alive) (id : String) :
    Lives hub { hub with accountant := hub.accountant.removeJob id } := by
  have closed := closed_removeJob alive.orderly.sound id
  refine lives_of_fewer alive ?_ rfl fun other account kept => ?_
  · exact ⟨closed.sound, alive.orderly.filed, closed.holder.trans alive.orderly.free⟩
  · by_cases same : other = id
    · rw [same, closed.gone] at kept
      cases kept
    · exact ⟨account, (closed.others other same).symm.trans kept⟩

theorem lives_stopJob (alive : hub.Alive) (id : String) (now : Instant) :
    Lives hub (hub.stopJob id now).1 := by
  have moves : Lives hub (hub.moveJob id [.ready, .running, .resume] .pause now).1 :=
    lives_moveJob alive id (fun _ source => .stopped source) (by decide) now
  rw [stopJob]
  generalize hub.moveJob id [.ready, .running, .resume] .pause now = result at moves ⊢
  obtain ⟨after, answer⟩ := result
  cases answer <;> exact moves

/-! ## The stages of a run -/

/-- The hubs after each of the dispatches that `dispatchTasks` makes. -/
def dispatchTasksStages (job : Job) (id : String) (now : Instant) (indices : List Nat) (hub : Hub) :
    List Hub :=
  (dispatchTasksAttempts job id now indices hub).map Attempt.leaves

/-- The hubs after each of the dispatches that `dispatchJob` makes. -/
def dispatchJobStages (hub : Hub) (id : String) (now : Instant) : List Hub :=
  (hub.dispatchJobAttempts id now).map Attempt.leaves

/-- The hub after the job was moved, and those after each of the dispatches that follow. -/
def startJobStages (hub : Hub) (id : String) (now : Instant) : List Hub :=
  (hub.moveJob id [.ready, .running, .pause] .resume now).1 ::
    (hub.startJobAttempts id now).map Attempt.leaves

/-- The hubs that a call passes through, one for each time that a job may be written. -/
def callStages (call : Call) (now : Instant) (hub : Hub) : List Hub :=
  match call with
  | .dispatchJob id => hub.dispatchJobStages id now
  | .startJob id => hub.startJobStages id now
  | _ => [(call.perform now hub).1]

/-- The hubs that a run passes through. -/
def stages : List (Call × Instant) → Hub → List Hub
  | [], _ => []
  | (call, now) :: rest, hub => callStages call now hub ++ stages rest (call.perform now hub).1

/-- The hubs of a list follow one another write by write and end in the last one. -/
inductive Course : Hub → List Hub → Hub → Prop where
  | done (hub : Hub) : Course hub [] hub
  | write {hub middle last : Hub} {later : List Hub} (step : Lives hub middle)
      (more : Course middle later last) : Course hub (middle :: later) last

theorem Course.append {first second : List Hub} (one : Course hub first middle)
    (two : Course middle second last) : Course hub (first ++ second) last := by
  induction one with
  | done => exact two
  | write step more ih => exact .write step (ih two)

theorem Lives.course (step : Lives hub after) : Course hub [after] after :=
  .write step (.done after)

theorem Course.alive {list : List Hub} (course : Course hub list last) (alive : hub.Alive) :
    last.Alive := by
  induction course with
  | done => exact alive
  | write step more ih => exact ih step.alive

theorem course_dispatchTasks (job : Job) (id : String) (now : Instant) (indices : List Nat)
    (sent : Nat) (hub : Hub) (alive : hub.Alive) :
    Course hub (dispatchTasksStages job id now indices hub)
      (dispatchTasks job id now indices sent hub).1 := by
  induction indices generalizing sent hub with
  | nil => exact .done hub
  | cons index rest ih =>
      rw [dispatchTasks, dispatchTasksStages, dispatchTasksAttempts]
      cases hub.buildTask job index with
      | error error => exact .done hub
      | ok task =>
          have step := lives_dispatch alive id task now
          dsimp only
          rw [List.map_cons, Attempt.leaves]
          generalize hub.dispatch id task now = result at step ⊢
          obtain ⟨after, answer⟩ := result
          cases answer with
          | error error => exact step.course
          | ok dispatched =>
              cases dispatched with
              | sent => exact .write step (ih _ after step.alive)
              | alreadyAssigned => exact .write step (ih _ after step.alive)
              | held => exact step.course

theorem course_dispatchJob (alive : hub.Alive) (id : String) (now : Instant) :
    Course hub (hub.dispatchJobStages id now) (hub.dispatchJob id now).1 := by
  rw [dispatchJob, dispatchJobStages, dispatchJobAttempts]
  cases hub.findJob id with
  | error error => exact .done hub
  | ok job => exact course_dispatchTasks job id now _ 0 hub alive

theorem course_startJob (alive : hub.Alive) (id : String) (now : Instant) :
    Course hub (hub.startJobStages id now) (hub.startJob id now).1 := by
  have step : Lives hub (hub.moveJob id [.ready, .running, .pause] .resume now).1 :=
    lives_moveJob alive id (fun _ source => .started source) (by decide) now
  rw [startJob, startJobStages, startJobAttempts]
  generalize hub.moveJob id [.ready, .running, .pause] .resume now = result at step ⊢
  obtain ⟨after, answer⟩ := result
  cases answer with
  | error error => exact step.course
  | ok job =>
      dsimp only
      split
      · exact step.course
      · exact .write step (course_dispatchJob step.alive id now)

/-- Every call passes through its stages. -/
theorem course_call (alive : hub.Alive) (call : Call) (now : Instant) :
    Course hub (callStages call now hub) (call.perform now hub).1 := by
  cases call with
  | dispatch id task => exact (lives_dispatch alive id task now).course
  | dispatchJob id => exact course_dispatchJob alive id now
  | startJob id => exact course_startJob alive id now
  | stopJob id => exact (lives_stopJob alive id now).course
  | report completion => exact (lives_onCompletion alive completion now).course
  | reconcile id => exact (lives_reconcile alive id now).course
  | record completion =>
      cases idle_record hub completion now with
      | idle accountant jobs => exact (lives_of_same alive accountant jobs).course
  | removeJob id => exact (lives_removeJob alive id).course
  | takeTask node =>
      cases idle_takeTask hub node with
      | idle accountant jobs => exact (lives_of_same alive accountant jobs).course
  | closeNode node =>
      cases idle_closeNode hub node with
      | idle accountant jobs => exact (lives_of_same alive accountant jobs).course

theorem course_run (calls : List (Call × Instant)) (hub : Hub) (alive : hub.Alive) :
    Course hub (stages calls hub) (run calls hub).1 := by
  induction calls generalizing hub with
  | nil => exact .done hub
  | cons step rest ih =>
      obtain ⟨call, now⟩ := step
      have first := course_call alive call now
      exact first.append (ih _ (first.alive alive))

/-- From each stage to the next, every job takes at most one step. -/
theorem Course.isChain {list : List Hub} (course : Course hub list last) :
    (hub :: list).IsChain fun before after => before.ledger.Advances after.ledger := by
  induction course with
  | done hub => exact .singleton hub
  | write step more ih => exact .cons_cons step.advances ih

theorem Course.getLast {list : List Hub} (course : Course hub list last) :
    (hub :: list).getLast (List.cons_ne_nil hub list) = last := by
  induction course with
  | done hub => rfl
  | write step more ih => exact (List.getLast_cons (List.cons_ne_nil _ _)).trans ih

/-- A finished job is kept all the way. -/
theorem Course.kept {list : List Hub} (course : Course hub list last)
    (found : hub.ledger.job? id = .ok (some job)) (ended : job.state = .finished) :
    last.ledger.job? id = .ok (some job) := by
  induction course with
  | done => exact found
  | write step more ih => exact ih (step.advances.kept found ended)

/-! ## Jobs that are finished -/

/-- No move leads out of the last state. -/
theorem moveJob_of_finished (found : hub.ledger.job? id = .ok (some job))
    (ended : job.state = .finished) {sources : List JobState} (leaving : .finished ∉ sources)
    (target : JobState) (now : Instant) :
    hub.moveJob id sources target now = (hub, .ok job) := by
  have stays : job.state = target ∨ job.state ∉ sources := .inr (ended ▸ leaving)
  rw [moveJob, Ledger.moveJob, job_eq_ok_iff.2 found, ok_bind, if_pos stays]
  rfl

/-- A finished job is at rest: nothing is handed out of it, and it is never written again. -/
structure AtRest (hub : Hub) (id : String) (job : Job) : Prop where
  kept : ∀ later, (run later hub).1.ledger.job? id = .ok (some job)
  dispatch : ∀ task now, hub.dispatch id task now = (hub, .ok (.held .finished))
  start : ∀ now, hub.startJob id now = (hub, .error (.jobNotStartable id .finished))
  stop : ∀ now, hub.stopJob id now = (hub, .ok .finished)

theorem Alive.atRest (alive : hub.Alive) (found : hub.ledger.job? id = .ok (some job))
    (ended : job.state = .finished) : AtRest hub id job where
  kept later := (course_run later hub alive).kept found ended
  dispatch task now := by
    rw [dispatch_of_closed found (by rw [ended]; rfl), ended]
  start now := by
    rw [startJob, moveJob_of_finished found ended (by decide)]
    dsimp only
    rw [if_pos ended, ended]
  stop now := by
    rw [stopJob, moveJob_of_finished found ended (by decide)]
    dsimp only
    rw [ended]

/-! ## Jobs that hand out nothing -/

/-- A call hands out no task of a job, and if it is about the job, the inboxes are as before. -/
structure Quiet (hub : Hub) (call : Call) (now : Instant) (id : String) : Prop where
  unsent : ∀ task, (id, task) ∉ sentTasks (call.perform now hub).2
  inboxes : call.job? = some id → (call.perform now hub).1.nodes = hub.nodes

/-- A call about another job, or about none, hands out no task of this one. -/
theorem quiet_of_apart (orderly : hub.Orderly) {call : Call} (differ : call.job? ≠ some id) :
    Quiet hub call now id where
  unsent task mem := by
    have step := performed orderly call now
    generalize call.job? = subject at differ step
    generalize (call.perform now hub).2 = journal at mem step
    cases step with
    | handed step =>
        rw [sentTasks_map_sent] at mem
        obtain ⟨_, _, same⟩ := List.mem_map.1 mem
        exact differ (congrArg some (Prod.mk.inj same).1)
    | reported => cases mem
    | reconciled => cases mem
    | removed => cases mem
    | idle => cases mem
  inboxes own := absurd own differ

/-- A call that notes nothing that was sent and leaves the nodes alone. -/
theorem quiet_of_undisturbed {call : Call} (unsent : sentTasks (call.perform now hub).2 = [])
    (undisturbed : Undisturbed hub (call.perform now hub).1) : Quiet hub call now id where
  unsent task mem := by
    rw [unsent] at mem
    cases mem
  inboxes _ := undisturbed.nodes

/-- A call that begins with a job that is paused or finished hands out no task of it, unless it
starts the paused job. -/
theorem quiet_of_closed (orderly : hub.Orderly) (found : hub.ledger.job? id = .ok (some job))
    (closed : job.state.acceptsDispatch = false) {call : Call}
    (other : ¬ (call = .startJob id ∧ job.state = .pause)) : Quiet hub call now id := by
  by_cases own : call.job? = some id
  · cases call with
    | dispatch name task =>
        cases own
        have held := dispatch_of_closed found closed task now
        refine quiet_of_undisturbed ?_ ?_
        · rw [Call.perform, sentTasks_map_sent, dispatchSent, held]
          rfl
        · rw [Call.perform, held]
          exact .refl hub
    | dispatchJob name =>
        cases own
        obtain ⟨same, none, _⟩ := dispatchJob_of_closed found closed now
        refine quiet_of_undisturbed ?_ ?_
        · rw [Call.perform, sentTasks_map_sent, none]
          rfl
        · rw [Call.perform, same]
          exact .refl hub
    | startJob name =>
        cases own
        have ended : job.state = .finished := by
          cases state : job.state with
          | finished => rfl
          | pause => exact absurd ⟨rfl, state⟩ other
          | ready => rw [state] at closed; cases closed
          | running => rw [state] at closed; cases closed
          | resume => rw [state] at closed; cases closed
        have leaving : JobState.finished ∉ [JobState.ready, .running, .pause] := by decide
        have stays (target : JobState) := moveJob_of_finished found ended leaving target now
        refine quiet_of_undisturbed ?_ ?_
        · rw [Call.perform, sentTasks_map_sent, startJobSent_eq, stays]
          simp [ended]
        · rw [Call.perform, startJob, stays]
          simp only [ended, if_true]
          exact .refl hub
    | stopJob name => exact quiet_of_undisturbed rfl (undisturbed_stopJob hub name now)
    | report completion =>
        exact quiet_of_undisturbed rfl (undisturbed_onCompletion hub completion now)
    | reconcile name => exact quiet_of_undisturbed rfl (undisturbed_reconcile hub name now)
    | removeJob name => exact quiet_of_undisturbed rfl ⟨rfl, rfl, rfl, rfl, rfl⟩
    | record completion => cases own
    | takeTask node => cases own
    | closeNode node => cases own
  · exact quiet_of_apart orderly own

/-! ## Every run -/

/-- How jobs live through a run. -/
structure Lifecycle (hub : Hub) (calls : List (Call × Instant)) : Prop where
  /-- From each write to the next, every job takes at most one step. -/
  steps : (hub :: stages calls hub).IsChain fun before after =>
    before.ledger.Advances after.ledger
  /-- The last of the stages is the end of the run. -/
  ends : (hub :: stages calls hub).getLast (List.cons_ne_nil _ _) = (run calls hub).1
  /-- A finished job is at rest. -/
  finished : ∀ id job, (run calls hub).1.ledger.job? id = .ok (some job) →
    job.state = .finished → AtRest (run calls hub).1 id job
  /-- No call that begins with a job that is paused or finished hands out a task of it, unless it
  starts the paused job. -/
  quiet : ∀ id job call now, (run calls hub).1.ledger.job? id = .ok (some job) →
    job.state = .pause ∨ job.state = .finished →
    ¬ (call = .startJob id ∧ job.state = .pause) → Quiet (run calls hub).1 call now id

/-- In every run that begins without accounts, whatever is called for whatever jobs, the stored jobs
take the steps of their states only, a finished job stays as it is, and a job that is paused or
finished is not handed out. -/
theorem lifecycle_run (hub : Hub) (fresh : hub.accountant = .empty) (filed : hub.ledger.Filed)
    (calls : List (Call × Instant)) : Lifecycle hub calls := by
  have alive := alive_of_fresh fresh filed
  have course := course_run calls hub alive
  have after := course.alive alive
  refine ⟨course.isChain, course.getLast, fun id job found ended => after.atRest found ended, ?_⟩
  intro id job call now found state other
  have closed : job.state.acceptsDispatch = false := by
    rcases state with state | state <;> rw [state] <;> rfl
  exact quiet_of_closed after.orderly found closed other

theorem lifecycle_pairCalls :
    pairHub.accountant = .empty ∧ pairHub.ledger.Filed ∧ Lifecycle pairHub pairCalls :=
  ⟨rfl, pairHub_filed, lifecycle_run pairHub rfl pairHub_filed pairCalls⟩

end Hub

end MediaHarvest
