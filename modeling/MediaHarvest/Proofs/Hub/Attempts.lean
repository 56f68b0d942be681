import MediaHarvest.Proofs.Hub.Journal

/-!
# The dispatches of a run

A call makes its dispatches one after another, each in the hub that the one before left.  `attempts`
lists those of a run, each with the hub in which it is made; what a run hands out it hands out by
them.
-/

namespace MediaHarvest.Hub

variable {hub : Hub}

/-! ## The dispatches of a run -/

/-- The task of a dispatch with its job, if a node was given it. -/
def Attempt.sent (attempt : Attempt) : List (String × String) :=
  attempt.names.map (Prod.mk attempt.job)

/-- The dispatches that a call makes. -/
def callAttempts (call : Call) (now : Instant) (hub : Hub) : List Attempt :=
  match call with
  | .dispatch id task => [⟨hub, id, task, now⟩]
  | .dispatchJob id => hub.dispatchJobAttempts id now
  | .startJob id => hub.startJobAttempts id now
  | _ => []

/-- The dispatches that a run makes, one after another. -/
def attempts : List (Call × Instant) → Hub → List Attempt
  | [], _ => []
  | (call, now) :: rest, hub => callAttempts call now hub ++ attempts rest (call.perform now hub).1

theorem sent_dispatchTasksAttempts (job : Job) (id : String) (now : Instant) (indices : List Nat)
    (hub : Hub) :
    (dispatchTasksAttempts job id now indices hub).flatMap Attempt.sent =
      (dispatchTasksSent job id now indices hub).map (Prod.mk id) := by
  induction indices generalizing hub with
  | nil => rfl
  | cons index rest ih =>
      rw [dispatchTasksAttempts, dispatchTasksSent_cons]
      cases hub.buildTask job index with
      | error error => rfl
      | ok task =>
          dsimp only
          rw [List.flatMap_cons, List.map_append, Attempt.sent]
          congr 1
          generalize hub.dispatch id task now = result
          obtain ⟨after, answer⟩ := result
          cases answer with
          | error error => rfl
          | ok dispatched =>
              cases dispatched with
              | sent => exact ih after
              | alreadyAssigned => exact ih after
              | held => rfl

theorem sent_dispatchJobAttempts (hub : Hub) (id : String) (now : Instant) :
    (hub.dispatchJobAttempts id now).flatMap Attempt.sent =
      (hub.dispatchJobSent id now).map (Prod.mk id) := by
  rw [dispatchJobAttempts, dispatchJobSent_eq]
  cases hub.findJob id with
  | error error => rfl
  | ok job => exact sent_dispatchTasksAttempts job id now _ hub

/-- What a call hands out it hands out by its dispatches. -/
theorem sent_callAttempts (call : Call) (now : Instant) (hub : Hub) :
    (callAttempts call now hub).flatMap Attempt.sent = sentTasks (call.perform now hub).2 := by
  cases call with
  | dispatch id task =>
      rw [Call.perform, sentTasks_map_sent]
      exact List.append_nil _
  | dispatchJob id =>
      rw [Call.perform, sentTasks_map_sent]
      exact hub.sent_dispatchJobAttempts id now
  | startJob id =>
      rw [Call.perform, sentTasks_map_sent]
      show (hub.startJobAttempts id now).flatMap Attempt.sent = _
      rw [startJobAttempts, startJobSent_eq]
      generalize hub.moveJob id [.ready, .running, .pause] .resume now = result
      obtain ⟨after, answer⟩ := result
      cases answer with
      | error error => rfl
      | ok job =>
          dsimp only
          split
          · rfl
          · exact after.sent_dispatchJobAttempts id now
  | stopJob | report | reconcile | record | removeJob | takeTask | closeNode => rfl

theorem sent_attempts (calls : List (Call × Instant)) (hub : Hub) :
    (attempts calls hub).flatMap Attempt.sent = sentTasks (run calls hub).2 := by
  induction calls generalizing hub with
  | nil => rfl
  | cons step rest ih =>
      obtain ⟨call, now⟩ := step
      rw [attempts, run, List.flatMap_append, sent_callAttempts, ih, sentTasks_append]

/-! ## What handing out keeps -/

/-- Neither a dispatch nor the start of a job breaks a property of hubs. -/
structure Persists (holds : Hub → Prop) : Prop where
  dispatch : ∀ {hub : Hub} (id : String) (task : Task) (now : Instant),
    holds hub → holds (hub.dispatch id task now).1
  move : ∀ {hub : Hub} (id : String) (now : Instant),
    holds hub → holds (hub.moveJob id [.ready, .running, .pause] .resume now).1

variable {holds : Hub → Prop}

theorem Persists.dispatchTasks (persists : Persists holds) (job : Job) (id : String)
    (now : Instant) (indices : List Nat) (sent : Nat) (hub : Hub) (before : holds hub) :
    holds (dispatchTasks job id now indices sent hub).1 ∧
      ∀ attempt ∈ dispatchTasksAttempts job id now indices hub, holds attempt.hub := by
  induction indices generalizing sent hub with
  | nil => exact ⟨before, by simp [dispatchTasksAttempts]⟩
  | cons index rest ih =>
      rw [Hub.dispatchTasks, dispatchTasksAttempts]
      cases hub.buildTask job index with
      | error error => exact ⟨before, by simp⟩
      | ok task =>
          have next := persists.dispatch id task now before
          dsimp only
          generalize hub.dispatch id task now = result at next ⊢
          obtain ⟨after, answer⟩ := result
          cases answer with
          | error error => exact ⟨next, by simpa using before⟩
          | ok dispatched =>
              cases dispatched with
              | sent =>
                  obtain ⟨last, others⟩ := ih (sent + 1) after next
                  exact ⟨last, List.forall_mem_cons.2 ⟨before, others⟩⟩
              | alreadyAssigned =>
                  obtain ⟨last, others⟩ := ih sent after next
                  exact ⟨last, List.forall_mem_cons.2 ⟨before, others⟩⟩
              | held => exact ⟨next, by simpa using before⟩

theorem Persists.dispatchJob (persists : Persists holds) (before : holds hub) (id : String)
    (now : Instant) :
    holds (hub.dispatchJob id now).1 ∧
      ∀ attempt ∈ hub.dispatchJobAttempts id now, holds attempt.hub := by
  rw [Hub.dispatchJob, dispatchJobAttempts]
  cases hub.findJob id with
  | error error => exact ⟨before, by simp⟩
  | ok job => exact persists.dispatchTasks job id now _ 0 hub before

theorem Persists.startJob (persists : Persists holds) (before : holds hub) (id : String)
    (now : Instant) :
    holds (hub.startJob id now).1 ∧
      ∀ attempt ∈ hub.startJobAttempts id now, holds attempt.hub := by
  have moves := persists.move id now before
  rw [Hub.startJob, startJobAttempts]
  generalize hub.moveJob id [.ready, .running, .pause] .resume now = result at moves ⊢
  obtain ⟨after, answer⟩ := result
  cases answer with
  | error error => exact ⟨moves, by simp⟩
  | ok job =>
      dsimp only
      split
      · exact ⟨moves, by simp⟩
      · exact persists.dispatchJob moves id now

end MediaHarvest.Hub
