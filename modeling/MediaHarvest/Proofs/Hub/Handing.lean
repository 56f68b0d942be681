import MediaHarvest.Proofs.Hub.Dispatch
import MediaHarvest.Proofs.Number.Digits

/-!
# Handing out tasks

`Handed` says what any number of dispatches for one job leave behind, given the names of the tasks
that reached a node: these were not accounted before and are pending now, and nothing else of the
accounts differs.  It holds of every call that hands out tasks, by way of the list of the dispatches
that the call makes.
-/

namespace MediaHarvest

open Ledger Accountant

/-- A job that goes on: its plan is the same, and so is whether it is finished. -/
structure Job.Continues (before after : Job) : Prop where
  tasks : after.tasks = before.tasks
  /-- The job is not finished, and does not come back. -/
  finished : after.state = .finished ↔ before.state = .finished

theorem Job.Continues.refl (job : Job) : job.Continues job := ⟨rfl, Iff.rfl⟩

theorem Job.Continues.trans {first second third : Job} (one : first.Continues second)
    (two : second.Continues third) : first.Continues third :=
  ⟨two.tasks.trans one.tasks, two.finished.trans one.finished⟩

/-- A move between states that are not the last keeps the job going. -/
theorem Job.continues_moved (job : Job) {sources : List JobState} {target : JobState}
    (leaving : JobState.finished ∉ sources) (entering : target ≠ .finished) (now : Instant) :
    job.Continues (moved job sources target now) := by
  rw [moved]
  split
  · exact .refl job
  · next moves =>
    have source : job.state ∈ sources := by
      by_contra outside
      exact moves (.inr outside)
    have unfinished : job.state ≠ .finished := fun last => leaving (last ▸ source)
    exact ⟨rfl, fun last => absurd last entering, fun last => absurd last unfinished⟩

namespace Hub

variable {hub middle after : Hub} {id : String} {job : Job} {task : Task} {now : Instant}

/-! ## What handing out leaves alone -/

/-- What no dispatch changes. -/
structure Steady (hub after : Hub) : Prop where
  resources : after.ledger.resources = hub.ledger.resources
  executions : after.ledger.executions = hub.ledger.executions
  latest : after.ledger.latest = hub.ledger.latest
  /-- The limits of jobs without their own. -/
  limits : after.defaultLimits = hub.defaultLimits
  announced : after.announced = hub.announced
  /-- The number of jobs that were finished. -/
  finished : after.metrics.jobsFinished = hub.metrics.jobsFinished

theorem Steady.refl (hub : Hub) : Steady hub hub := ⟨rfl, rfl, rfl, rfl, rfl, rfl⟩

theorem Steady.trans (first : Steady hub middle) (second : Steady middle after) :
    Steady hub after where
  resources := second.resources.trans first.resources
  executions := second.executions.trans first.executions
  latest := second.latest.trans first.latest
  limits := second.limits.trans first.limits
  announced := second.announced.trans first.announced
  finished := second.finished.trans first.finished

/-- A task is built of what no dispatch changes. -/
theorem Steady.buildTask (steady : Steady hub after) (job : Job) (index : Nat) :
    after.buildTask job index = hub.buildTask job index := by
  simp only [Hub.buildTask, previousHeaders, resource?, latest?, steady.resources, steady.latest,
    steady.limits]

/-! ## What handing out does -/

/-- Tasks of a job were handed out, those of the names in `sent`. -/
structure Handed (hub after : Hub) (id : String) (sent : List String) : Prop where
  touched : Touched hub after id
  /-- Everything but jobs, accounts, backlog and inboxes is as before. -/
  steady : Steady hub after
  retired : after.accountant.retired = hub.accountant.retired
  distinct : sent.Nodup
  /-- A task that is handed out was not accounted. -/
  fresh : ∀ task ∈ sent, hub.accountant.task? id task = none
  /-- A task that is handed out is pending. -/
  pending : ∀ task ∈ sent, ∃ record,
    after.accountant.task? id task = some record ∧ record.state = .pending
  others : ∀ task, task ∉ sent → after.accountant.task? id task = hub.accountant.task? id task
  /-- Nothing is handed out for a retired job. -/
  active : sent ≠ [] → hub.accountant.retired.contains id = false
  job : ∀ ⦃before⦄, hub.ledger.job? id = .ok (some before) →
    ∃ job, after.ledger.job? id = .ok (some job) ∧ before.Continues job
  /-- Every task that is handed out is counted. -/
  counted : after.metrics.tasksDispatched =
    hub.metrics.tasksDispatched + UInt64.ofNat sent.length

theorem Handed.refl (orderly : hub.Orderly) (id : String) : Handed hub hub id [] where
  touched := .refl orderly id
  steady := .refl hub
  retired := rfl
  distinct := List.nodup_nil
  fresh := by simp
  pending := by simp
  others := fun _ _ => rfl
  active := by simp
  job := fun before found => ⟨before, found, .refl before⟩
  counted := by simp

/-- A call that leaves accounts, jobs and counters as they are hands out nothing. -/
theorem handed_nil (touched : Touched hub after id) (steady : Steady hub after)
    (retired : after.accountant.retired = hub.accountant.retired)
    (same : ∀ task, after.accountant.task? id task = hub.accountant.task? id task)
    (job : ∀ ⦃before⦄, hub.ledger.job? id = .ok (some before) →
      ∃ job, after.ledger.job? id = .ok (some job) ∧ before.Continues job)
    (counted : after.metrics.tasksDispatched = hub.metrics.tasksDispatched) :
    Handed hub after id [] where
  touched := touched
  steady := steady
  retired := retired
  distinct := List.nodup_nil
  fresh := by simp
  pending := by simp
  others := fun task _ => same task
  active := by simp
  job := job
  counted := by simpa using counted

/-- Handing out goes on from where it stopped. -/
theorem Handed.trans {first second : List String} (one : Handed hub middle id first)
    (two : Handed middle after id second) : Handed hub after id (first ++ second) where
  touched := one.touched.trans two.touched
  steady := one.steady.trans two.steady
  retired := two.retired.trans one.retired
  distinct := by
    refine List.nodup_append.2 ⟨one.distinct, two.distinct, ?_⟩
    rintro task early _ late rfl
    obtain ⟨record, found, _⟩ := one.pending task early
    rw [two.fresh task late] at found
    cases found
  fresh := by
    intro task mem
    by_cases early : task ∈ first
    · exact one.fresh task early
    · have late := (List.mem_append.1 mem).resolve_left early
      rw [← one.others task early]
      exact two.fresh task late
  pending := by
    intro task mem
    by_cases late : task ∈ second
    · exact two.pending task late
    · rw [two.others task late]
      exact one.pending task ((List.mem_append.1 mem).resolve_right late)
  others := by
    intro task outside
    rw [two.others task fun late => outside (List.mem_append_right _ late)]
    exact one.others task fun early => outside (List.mem_append_left _ early)
  active := by
    intro nonempty
    cases first with
    | cons task first => exact one.active (by simp)
    | nil =>
        rw [← one.retired]
        exact two.active (by simpa using nonempty)
  job := by
    intro before found
    obtain ⟨job, found, goes⟩ := one.job found
    obtain ⟨last, found, further⟩ := two.job found
    exact ⟨last, found, goes.trans further⟩
  counted := by
    rw [two.counted, one.counted, List.length_append, UInt64.ofNat_add, UInt64.add_assoc]

/-- The names of the tasks that a dispatch hands out: that of its task, if a node takes it. -/
def dispatchSent (hub : Hub) (id : String) (task : Task) (now : Instant) : List String :=
  match (hub.dispatch id task now).2 with
  | .ok (.sent ..) => [task.id]
  | _ => []

/-- Any end of a dispatch is one of handing out its task or nothing. -/
theorem handed_dispatch (orderly : hub.Orderly) (id : String) (task : Task) (now : Instant) :
    Handed hub (hub.dispatch id task now).1 id (hub.dispatchSent id task now) := by
  have ends := dispatching orderly.sound orderly.filed id task now
  rw [dispatchSent]
  generalize (hub.dispatch id task now).1 = after at ends ⊢
  generalize (hub.dispatch id task now).2 = answer at ends ⊢
  cases ends with
  | unknown => exact .refl orderly id
  | held => exact .refl orderly id
  | assigned => exact .refl orderly id
  | noNodes => exact .refl orderly id
  | retired =>
      refine handed_nil ?_ ⟨rfl, rfl, rfl, rfl, rfl, rfl⟩ rfl (fun _ => rfl) ?_ rfl
      · exact touched_of_same orderly rfl rfl
      · exact fun before found => ⟨before, found, .refl before⟩
  | @sent job ledger accountant nodes node found accepts missing active restated rewritten =>
      have tasks (other : String) : accountant.task? id other =
          if other = task.id then some ⟨task, node, .pending⟩
          else hub.accountant.task? id other := by
        rw [rewritten.task?, if_pos rfl, entered_get?]
      exact
        { touched := touched_of_rewritten orderly.free restated rewritten rfl rfl
          steady := ⟨restated.resources, restated.executions, restated.latest, rfl, rfl, rfl⟩
          retired := rewritten.retired
          distinct := by simp
          fresh := by simpa using hasTask_eq_false_iff.1 missing
          pending := by
            intro other mem
            rw [List.mem_singleton.1 mem]
            exact ⟨_, (tasks _).trans (if_pos rfl), rfl⟩
          others := by
            intro other outside
            exact (tasks other).trans (if_neg (by simpa using outside))
          active := fun _ => active
          job := by
            intro before stored
            rw [found] at stored
            cases stored
            exact ⟨_, restated.is, job.continues_moved (by decide) (by decide) now⟩
          counted := rfl }
  | @undelivered job ledger backlog accountant account error found accepts missing active restated
      rewritten same =>
      refine handed_nil (touched_of_rewritten orderly.free restated rewritten rfl rfl)
        ⟨restated.resources, restated.executions, restated.latest, rfl, rfl, rfl⟩
        rewritten.retired ?_ ?_ rfl
      · intro other
        exact (rewritten.task? id other).trans ((if_pos rfl).trans (same other))
      · intro before stored
        rw [found] at stored
        cases stored
        exact ⟨_, restated.is, job.continues_moved (by decide) (by decide) now⟩

/-! ## Whole jobs -/

/-- A dispatch, and the hub in which it is made. -/
structure Attempt where
  hub : Hub
  job : String
  task : Task
  now : Instant

namespace Attempt

/-- The hub that the dispatch leaves. -/
def leaves (attempt : Attempt) : Hub :=
  (attempt.hub.dispatch attempt.job attempt.task attempt.now).1

/-- The name of its task, if a node was given it. -/
def names (attempt : Attempt) : List String :=
  attempt.hub.dispatchSent attempt.job attempt.task attempt.now

end Attempt

/-- The dispatches that `dispatchTasks` makes, one after another. -/
def dispatchTasksAttempts (job : Job) (id : String) (now : Instant) :
    List Nat → Hub → List Attempt
  | [], _ => []
  | index :: rest, hub =>
      match hub.buildTask job index with
      | .error _ => []
      | .ok task =>
          ⟨hub, id, task, now⟩ ::
            match hub.dispatch id task now with
            | (after, .ok (.sent ..)) => dispatchTasksAttempts job id now rest after
            | (after, .ok .alreadyAssigned) => dispatchTasksAttempts job id now rest after
            | _ => []

/-- The dispatches that `dispatchJob` makes. -/
def dispatchJobAttempts (hub : Hub) (id : String) (now : Instant) : List Attempt :=
  match hub.findJob id with
  | .error _ => []
  | .ok job => dispatchTasksAttempts job id now (List.range job.tasks.length) hub

/-- The dispatches that `startJob` makes. -/
def startJobAttempts (hub : Hub) (id : String) (now : Instant) : List Attempt :=
  match hub.moveJob id [.ready, .running, .pause] .resume now with
  | (_, .error _) => []
  | (after, .ok job) => if job.state = .finished then [] else after.dispatchJobAttempts id now

/-- The names of the tasks that `dispatchTasks` hands out: those of all the dispatches it makes. -/
def dispatchTasksSent (job : Job) (id : String) (now : Instant) (indices : List Nat) (hub : Hub) :
    List String :=
  (dispatchTasksAttempts job id now indices hub).flatMap Attempt.names

/-- The names of the tasks that `dispatchJob` hands out. -/
def dispatchJobSent (hub : Hub) (id : String) (now : Instant) : List String :=
  (hub.dispatchJobAttempts id now).flatMap Attempt.names

/-- The names of the tasks that `startJob` hands out. -/
def startJobSent (hub : Hub) (id : String) (now : Instant) : List String :=
  (hub.startJobAttempts id now).flatMap Attempt.names

/-- A task that cannot be built ends the walk, and so does a dispatch that is refused or held. -/
theorem dispatchTasksSent_cons (job : Job) (id : String) (now : Instant) (index : Nat)
    (rest : List Nat) (hub : Hub) :
    dispatchTasksSent job id now (index :: rest) hub =
      match hub.buildTask job index with
      | .error _ => []
      | .ok task =>
          hub.dispatchSent id task now ++
            match hub.dispatch id task now with
            | (after, .ok (.sent ..)) => dispatchTasksSent job id now rest after
            | (after, .ok .alreadyAssigned) => dispatchTasksSent job id now rest after
            | _ => [] := by
  rw [dispatchTasksSent, dispatchTasksAttempts]
  cases hub.buildTask job index with
  | error error => rfl
  | ok task =>
      dsimp only
      rw [List.flatMap_cons]
      congr 1
      generalize hub.dispatch id task now = result
      obtain ⟨after, answer⟩ := result
      cases answer with
      | error error => rfl
      | ok dispatched => cases dispatched <;> rfl

theorem dispatchJobSent_eq (hub : Hub) (id : String) (now : Instant) :
    hub.dispatchJobSent id now =
      match hub.findJob id with
      | .error _ => []
      | .ok job => dispatchTasksSent job id now (List.range job.tasks.length) hub := by
  rw [dispatchJobSent, dispatchJobAttempts]
  cases hub.findJob id <;> rfl

theorem startJobSent_eq (hub : Hub) (id : String) (now : Instant) :
    hub.startJobSent id now =
      match hub.moveJob id [.ready, .running, .pause] .resume now with
      | (_, .error _) => []
      | (after, .ok job) =>
          if job.state = .finished then [] else after.dispatchJobSent id now := by
  rw [startJobSent, startJobAttempts]
  generalize hub.moveJob id [.ready, .running, .pause] .resume now = result
  obtain ⟨after, answer⟩ := result
  cases answer with
  | error error => rfl
  | ok job =>
      dsimp only
      split
      · rfl
      · rfl

theorem handed_dispatchTasks (job : Job) (id : String) (now : Instant) (indices : List Nat)
    (sent : Nat) (hub : Hub) (orderly : hub.Orderly) :
    Handed hub (dispatchTasks job id now indices sent hub).1 id
      (dispatchTasksSent job id now indices hub) := by
  induction indices generalizing sent hub with
  | nil => exact .refl orderly id
  | cons index rest ih =>
      rw [dispatchTasks, dispatchTasksSent_cons]
      cases hub.buildTask job index with
      | error error => exact .refl orderly id
      | ok task =>
          have one := handed_dispatch orderly id task now
          dsimp only
          generalize hub.dispatchSent id task now = names at one ⊢
          generalize hub.dispatch id task now = result at one ⊢
          obtain ⟨after, answer⟩ := result
          cases answer with
          | error error => exact (List.append_nil names).symm ▸ one
          | ok dispatched =>
              cases dispatched with
              | sent => exact one.trans (ih _ after one.touched.orderly)
              | alreadyAssigned => exact one.trans (ih _ after one.touched.orderly)
              | held => exact (List.append_nil names).symm ▸ one

theorem handed_dispatchJob (orderly : hub.Orderly) (id : String) (now : Instant) :
    Handed hub (hub.dispatchJob id now).1 id (hub.dispatchJobSent id now) := by
  rw [dispatchJob, dispatchJobSent_eq]
  cases hub.findJob id with
  | error error => exact .refl orderly id
  | ok job => exact handed_dispatchTasks job id now _ 0 hub orderly

/-- A move between states that are not the last hands out nothing. -/
theorem handed_moveJob (orderly : hub.Orderly) (id : String) {sources : List JobState}
    {target : JobState} (leaving : JobState.finished ∉ sources) (entering : target ≠ .finished)
    (now : Instant) : Handed hub (hub.moveJob id sources target now).1 id [] := by
  cases found : hub.findJob id with
  | ok job =>
      have stored := findJob_eq_ok_iff.1 found
      obtain ⟨ledger, moves, restated⟩ :=
        moveJob_of_stored orderly.filed stored sources target now
      rw [moves]
      refine handed_nil ?_ ⟨restated.resources, restated.executions, restated.latest, rfl, rfl, rfl⟩
        rfl (fun _ => rfl) ?_ rfl
      · exact ⟨⟨orderly.sound, restated.filed, orderly.free⟩, fun _ _ => rfl, fun _ _ => rfl,
          restated.others⟩
      · intro before found
        rw [stored] at found
        cases found
        exact ⟨_, restated.is, job.continues_moved leaving entering now⟩
  | error error =>
      cases answer : (hub.moveJob id sources target now).2 with
      | error refusal =>
          rw [moveJob_of_error answer]
          exact .refl orderly id
      | ok job =>
          exfalso
          rw [moveJob] at answer
          split at answer
          · next ledger moved done =>
            obtain ⟨before, stored⟩ := stored_of_moveJob done
            rw [findJob_eq_ok_iff.2 stored] at found
            cases found
          · cases answer
          · cases answer

theorem handed_startJob (orderly : hub.Orderly) (id : String) (now : Instant) :
    Handed hub (hub.startJob id now).1 id (hub.startJobSent id now) := by
  have moves : Handed hub (hub.moveJob id [.ready, .running, .pause] .resume now).1 id [] :=
    handed_moveJob orderly id (by decide) (by decide) now
  rw [startJob, startJobSent_eq]
  generalize hub.moveJob id [.ready, .running, .pause] .resume now = result at moves ⊢
  obtain ⟨after, answer⟩ := result
  cases answer with
  | error error => exact moves
  | ok job =>
      dsimp only
      split
      · exact moves
      · exact moves.trans (handed_dispatchJob moves.touched.orderly id now)

theorem handed_stopJob (orderly : hub.Orderly) (id : String) (now : Instant) :
    Handed hub (hub.stopJob id now).1 id [] := by
  have moves : Handed hub (hub.moveJob id [.ready, .running, .resume] .pause now).1 id [] :=
    handed_moveJob orderly id (by decide) (by decide) now
  rw [stopJob]
  generalize hub.moveJob id [.ready, .running, .resume] .pause now = result at moves ⊢
  obtain ⟨after, answer⟩ := result
  cases answer <;> exact moves

end Hub

end MediaHarvest
