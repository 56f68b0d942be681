import MediaHarvest.Hub.Dispatch
import MediaHarvest.Hub.Reception

/-!
# What reports leave alone

Neither a report nor a change of a job's state touches the backlog, the inboxes of the nodes or the
turn of the nodes.
-/

namespace MediaHarvest.Hub

/-- Everything but the ledger, the accounts, the counters and the announcements is as before. -/
structure Undisturbed (hub after : Hub) : Prop where
  backlog : after.backlog = hub.backlog
  nodes : after.nodes = hub.nodes
  turn : after.turn = hub.turn
  /-- The limits of jobs without their own. -/
  limits : after.defaultLimits = hub.defaultLimits
  patience : after.patience = hub.patience

variable {hub middle after : Hub}

theorem Undisturbed.refl (hub : Hub) : Undisturbed hub hub := ⟨rfl, rfl, rfl, rfl, rfl⟩

theorem Undisturbed.symm (same : Undisturbed hub after) : Undisturbed after hub :=
  ⟨same.backlog.symm, same.nodes.symm, same.turn.symm, same.limits.symm, same.patience.symm⟩

theorem Undisturbed.trans (first : Undisturbed hub middle) (second : Undisturbed middle after) :
    Undisturbed hub after where
  backlog := second.backlog.trans first.backlog
  nodes := second.nodes.trans first.nodes
  turn := second.turn.trans first.turn
  limits := second.limits.trans first.limits
  patience := second.patience.trans first.patience

theorem undisturbed_moveJob (hub : Hub) (id : String) (sources : List JobState) (target : JobState)
    (now : Instant) : Undisturbed hub (hub.moveJob id sources target now).1 := by
  rw [moveJob]
  split <;> exact ⟨rfl, rfl, rfl, rfl, rfl⟩

theorem undisturbed_begin (hub : Hub) (job : Job) (id : String) (now : Instant) :
    Undisturbed hub (hub.begin job id now).1 := by
  have moves := undisturbed_moveJob hub id [.ready, .resume] .running now
  rw [begin]
  generalize hub.moveJob id [.ready, .resume] .running now = moved at moves ⊢
  obtain ⟨after, answer⟩ := moved
  split
  · cases answer <;> exact moves
  · cases answer <;> exact moves
  · exact .refl hub

theorem undisturbed_stopJob (hub : Hub) (id : String) (now : Instant) :
    Undisturbed hub (hub.stopJob id now).1 := by
  have moves := undisturbed_moveJob hub id [.ready, .running, .resume] .pause now
  rw [stopJob]
  generalize hub.moveJob id [.ready, .running, .resume] .pause now = moved at moves ⊢
  obtain ⟨after, answer⟩ := moved
  cases answer <;> exact moves

theorem undisturbed_finishIfComplete (hub : Hub) (id : String) (now : Instant) :
    Undisturbed hub (hub.finishIfComplete id now).1 := by
  rw [finishIfComplete]
  split
  · exact .refl hub
  · split
    · exact .refl hub
    · split
      · exact .refl hub
      · split
        · exact .refl hub
        · split
          · exact .refl hub
          · next done =>
            rw [finish] at done
            cases stored : hub.ledger.setJobState id .finished now with
            | error error =>
                rw [stored] at done
                cases done
            | ok written =>
                rw [stored] at done
                cases done
                exact ⟨rfl, rfl, rfl, rfl, rfl⟩

theorem undisturbed_awaitAccount (hub : Hub) (id : String) :
    Undisturbed hub (hub.awaitAccount id).1 := by
  rw [awaitAccount]
  split <;> exact ⟨rfl, rfl, rfl, rfl, rfl⟩

theorem undisturbed_onCompletion (hub : Hub) (completion : Completion) (now : Instant) :
    Undisturbed hub (hub.onCompletion completion now).1 := by
  have waits := undisturbed_awaitAccount hub completion.job
  rw [onCompletion]
  generalize hub.awaitAccount completion.job = awaited at waits ⊢
  obtain ⟨hub, account⟩ := awaited
  cases account with
  | error error => exact waits
  | ok account =>
      cases account with
      | none => exact waits.trans ⟨rfl, rfl, rfl, rfl, rfl⟩
      | some account =>
          have applied : Undisturbed hub
              (hub.applyState completion.job completion.task completion.taskState).1 :=
            ⟨rfl, rfl, rfl, rfl, rfl⟩
          dsimp only
          generalize hub.applyState completion.job completion.task completion.taskState = result
            at applied ⊢
          obtain ⟨noted, recorded⟩ := result
          have counted : Undisturbed noted (noted.count Metrics.eventIgnored) :=
            ⟨rfl, rfl, rfl, rfl, rfl⟩
          have before := waits.trans applied
          cases recorded with
          | updated => exact before.trans (undisturbed_finishIfComplete ..)
          | duplicate =>
              exact (before.trans counted).trans (undisturbed_finishIfComplete ..)
          | unknown =>
              exact (before.trans counted).trans (undisturbed_finishIfComplete ..)

theorem undisturbed_recover (job : String) (records : List TaskRecord) (hub : Hub) :
    Undisturbed hub (recover job records hub).1 := by
  induction records generalizing hub with
  | nil => exact .refl hub
  | cons record rest ih =>
      rw [recover]
      split
      · exact .refl hub
      · exact ih hub
      · next execution _ =>
        have applied : Undisturbed hub
            (hub.applyState job record.task.id execution.measurements.taskState).1 :=
          ⟨rfl, rfl, rfl, rfl, rfl⟩
        exact applied.trans (ih _)

theorem undisturbed_reconcile (hub : Hub) (id : String) (now : Instant) :
    Undisturbed hub (hub.reconcile id now).1 := by
  have waits := undisturbed_awaitAccount hub id
  rw [reconcile]
  generalize hub.awaitAccount id = awaited at waits ⊢
  obtain ⟨hub, account⟩ := awaited
  cases account with
  | error error => exact waits
  | ok account =>
      cases account with
      | none => exact waits
      | some account =>
          have looked := undisturbed_recover id account.outstanding hub
          dsimp only
          generalize recover id account.outstanding hub = result at looked ⊢
          obtain ⟨recovered, answer⟩ := result
          have before := waits.trans looked
          cases answer with
          | error error => exact before
          | ok done => exact before.trans (undisturbed_finishIfComplete ..)

theorem undisturbed_record (hub : Hub) (completion : Completion) (now : Instant) :
    Undisturbed hub (hub.record completion now).1 := by
  rw [record]
  split <;> exact ⟨rfl, rfl, rfl, rfl, rfl⟩

end MediaHarvest.Hub
