import MediaHarvest.Proofs.Hub.Handing
import Mathlib.Data.List.Forall2
import Mathlib.Data.List.Nodup

/-!
# Handing out whole jobs

If handing out a job succeeds, every task that it plans is accounted, and those that were not
accounted before were written down and handed out in the order of the plan.
-/

namespace MediaHarvest

open Ledger Accountant

/-- Tasks at different positions have different names. -/
theorem Job.taskId_inj {job : Job} {i j : Nat} : job.taskId i = job.taskId j ↔ i = j := by
  constructor
  · intro same
    have texts : job.id ++ ":" ++ toString i = job.id ++ ":" ++ toString j := same
    have chars := congrArg String.toList texts
    simp only [String.toList_append] at chars
    exact Number.toString_inj.1 (String.toList_inj.1 (List.append_cancel_left chars))
  · rintro rfl
    rfl

/-- The names of the tasks that a job plans. -/
def Job.taskIds (job : Job) : List String := (List.range job.tasks.length).map job.taskId

theorem Job.nodup_taskIds (job : Job) : job.taskIds.Nodup :=
  List.Nodup.map (fun _ _ same => taskId_inj.1 same) List.nodup_range

theorem Job.mem_taskIds {job : Job} {task : String} :
    task ∈ job.taskIds ↔ ∃ index < job.tasks.length, task = job.taskId index := by
  simp only [taskIds, List.mem_map, List.mem_range]
  constructor
  · rintro ⟨index, inside, rfl⟩
    exact ⟨index, inside, rfl⟩
  · rintro ⟨index, inside, rfl⟩
    exact ⟨index, inside, rfl⟩

/-- A job that was started is not finished, so it accepts dispatch. -/
theorem Job.resumed_acceptsDispatch {job : Job} {now : Instant}
    (unfinished : (moved job [.ready, .running, .pause] .resume now).state ≠ .finished) :
    (moved job [.ready, .running, .pause] .resume now).state.acceptsDispatch = true := by
  rw [moved] at unfinished ⊢
  cases state : job.state <;> simp_all [Job.withState, JobState.acceptsDispatch]

namespace Hub

variable {hub after : Hub} {id : String} {job stored : Job} {task : Task} {now : Instant}

/-- A built task has the name of its position. -/
theorem buildTask_id {index : Nat} (built : hub.buildTask job index = .ok task) :
    task.id = job.taskId index := by
  obtain ⟨planned, resource, headers, _, _, _, rfl⟩ := buildTask_eq_ok_iff.1 built
  rfl

theorem buildTask_job {index : Nat} (built : hub.buildTask job index = .ok task) :
    task.job = job.id := by
  obtain ⟨planned, resource, headers, _, _, _, rfl⟩ := buildTask_eq_ok_iff.1 built
  rfl

/-- The positions of a job whose tasks are not accounted. -/
def unaccounted (hub : Hub) (id : String) (job : Job) (indices : List Nat) : List Nat :=
  indices.filter fun index => !hub.accountant.hasTask id (job.taskId index)

/-! ## Which tasks are handed out -/

theorem dispatchSent_subset (hub : Hub) (id : String) (task : Task) (now : Instant) :
    hub.dispatchSent id task now ⊆ [task.id] := by
  rw [dispatchSent]
  split
  · exact List.Subset.refl _
  · exact List.nil_subset _

/-- Handing out a job hands out tasks that it plans. -/
theorem dispatchTasksSent_subset (job : Job) (id : String) (now : Instant) (indices : List Nat)
    (hub : Hub) : dispatchTasksSent job id now indices hub ⊆ indices.map job.taskId := by
  induction indices generalizing hub with
  | nil => exact List.nil_subset _
  | cons index rest ih =>
      rw [dispatchTasksSent_cons, List.map_cons]
      cases built : hub.buildTask job index with
      | error error => exact List.nil_subset _
      | ok task =>
          dsimp only
          refine List.append_subset.2 ⟨?_, ?_⟩
          · intro name sent
            rw [List.mem_singleton.1 (dispatchSent_subset hub id task now sent), buildTask_id built]
            exact List.mem_cons_self
          · split
            · exact List.Subset.trans (ih _) (List.subset_cons_self _ _)
            · exact List.Subset.trans (ih _) (List.subset_cons_self _ _)
            · exact List.nil_subset _

theorem dispatchJobSent_subset (hub : Hub) (found : hub.ledger.job? id = .ok (some job))
    (now : Instant) : hub.dispatchJobSent id now ⊆ job.taskIds := by
  rw [dispatchJobSent_eq, findJob_eq_ok_iff.2 found]
  exact dispatchTasksSent_subset job id now _ hub

theorem startJobSent_subset (orderly : hub.Orderly) (found : hub.ledger.job? id = .ok (some job))
    (now : Instant) : hub.startJobSent id now ⊆ job.taskIds := by
  obtain ⟨ledger, moves, restated⟩ :=
    moveJob_of_stored orderly.filed found [.ready, .running, .pause] .resume now
  rw [startJobSent_eq, moves]
  dsimp only
  split
  · exact List.nil_subset _
  · have within := dispatchJobSent_subset { hub with ledger := ledger } restated.is now
    rcases moved_eq job [.ready, .running, .pause] .resume now with same | same <;>
      rw [same] at within <;> exact within

/-! ## What a successful call hands out -/

/-- A dispatch for a job that accepts dispatch succeeds in one of two ways. -/
theorem dispatch_of_accepting (orderly : hub.Orderly)
    (found : hub.ledger.job? id = .ok (some stored)) (accepts : stored.state.acceptsDispatch = true)
    (task : Task) (now : Instant) (dispatched : Dispatched)
    (done : (hub.dispatch id task now).2 = .ok dispatched) :
    (dispatched = .alreadyAssigned ∧ hub.accountant.hasTask id task.id = true ∧
        (hub.dispatch id task now).1 = hub) ∨
      ∃ number node next, dispatched = .sent number node ∧
        hub.accountant.hasTask id task.id = false ∧
        (hub.dispatch id task now).1.backlog = (hub.backlog.enqueue task).2 ∧
        (hub.dispatch id task now).1.ledger.job? id = .ok (some next) ∧
        next.state.acceptsDispatch = true := by
  have ends := dispatching orderly.sound orderly.filed id task now
  generalize (hub.dispatch id task now).1 = after at ends ⊢
  rw [done] at ends
  cases ends with
  | held other closed =>
      rw [found] at other
      cases other
      rw [accepts] at closed
      cases closed
  | assigned _ _ present => exact .inl ⟨rfl, present, rfl⟩
  | sent other _ missing _ restated _ _ =>
      rw [found] at other
      cases other
      exact .inr ⟨_, _, _, rfl, missing, rfl, restated.is, Job.begun_acceptsDispatch accepts⟩

theorem unaccounted_of_present {index : Nat} {rest : List Nat}
    (present : hub.accountant.hasTask id (job.taskId index) = true) :
    hub.unaccounted id job (index :: rest) = hub.unaccounted id job rest := by
  rw [unaccounted, List.filter_cons_of_neg (by rw [present]; simp), unaccounted]

/-- A task that was handed out is accounted, and no other one is. -/
theorem unaccounted_of_handed {index : Nat} {rest : List Nat}
    (missing : hub.accountant.hasTask id (job.taskId index) = false)
    (handed : Handed hub after id [job.taskId index]) (outside : index ∉ rest) :
    hub.unaccounted id job (index :: rest) = index :: after.unaccounted id job rest := by
  rw [unaccounted, List.filter_cons_of_pos (by rw [missing]; rfl), unaccounted]
  congr 1
  apply List.filter_congr
  intro other mem
  have differ : job.taskId other ∉ [job.taskId index] := by
    rw [List.mem_singleton, Job.taskId_inj]
    rintro rfl
    exact outside mem
  rw [hasTask, hasTask, handed.others _ differ]

/-- The tasks that a successful pass over positions writes down and hands out are those that were
not accounted, in the order of the positions. -/
theorem dispatchTasks_of_ok (job : Job) (id : String) (now : Instant) {count : Nat}
    (indices : List Nat) (distinct : indices.Nodup) (sent : Nat) (hub : Hub) (stored : Job)
    (orderly : hub.Orderly) (found : hub.ledger.job? id = .ok (some stored))
    (accepts : stored.state.acceptsDispatch = true)
    (done : (dispatchTasks job id now indices sent hub).2 = .ok count) :
    count = sent + (hub.unaccounted id job indices).length ∧
      dispatchTasksSent job id now indices hub =
        (hub.unaccounted id job indices).map job.taskId ∧
      ∃ tasks, List.Forall₂ (fun index task => hub.buildTask job index = .ok task)
          (hub.unaccounted id job indices) tasks ∧
        (dispatchTasks job id now indices sent hub).1.backlog = hub.backlog.enqueueAll tasks := by
  induction indices generalizing sent hub stored with
  | nil =>
      cases done
      exact ⟨rfl, rfl, [], .nil, rfl⟩
  | cons index rest ih =>
      obtain ⟨outside, distinct⟩ := List.nodup_cons.1 distinct
      rw [dispatchTasks] at done ⊢
      rw [dispatchTasksSent_cons]
      cases built : hub.buildTask job index with
      | error error =>
          rw [built] at done
          cases done
      | ok task =>
          rw [built] at done
          dsimp only at done ⊢
          have named := buildTask_id built
          have handed := handed_dispatch orderly id task now
          have success := dispatch_of_accepting orderly found accepts task now
          rw [dispatchSent] at handed ⊢
          generalize hub.dispatch id task now = result at done handed success ⊢
          obtain ⟨after, answer⟩ := result
          cases answer with
          | error error => cases done
          | ok dispatched =>
              rcases success dispatched rfl with
                ⟨rfl, present, rfl⟩ | ⟨number, node, next, rfl, missing, backlog, stays, accepting⟩
              · rw [unaccounted_of_present (named ▸ present)]
                exact ih distinct sent after stored orderly found accepts done
              · have taken : hub.unaccounted id job (index :: rest) =
                    index :: after.unaccounted id job rest :=
                  unaccounted_of_handed (named ▸ missing) (named ▸ handed) outside
                obtain ⟨counted, names, tasks, builds, writes⟩ :=
                  ih distinct (sent + 1) after next handed.touched.orderly stays accepting done
                rw [taken]
                refine ⟨?_, ?_, task :: tasks, .cons built ?_, ?_⟩
                · rw [counted, List.length_cons]
                  omega
                · dsimp only
                  rw [names, named]
                  rfl
                · refine builds.imp fun other task made => ?_
                  rw [← handed.steady.buildTask]
                  exact made
                · dsimp only at backlog ⊢
                  rw [writes, backlog]
                  rfl

/-- A job was handed out whole: `count` tasks that were not accounted were written down and handed
to nodes in the order of the plan, and now every task is accounted. -/
structure HandedOut (hub after : Hub) (id : String) (job : Job) (sent : List String) (count : Nat) :
    Prop where
  accounted : ∀ index < job.tasks.length,
    after.accountant.hasTask id (job.taskId index) = true
  /-- As many were sent as were not accounted. -/
  counted : count = (hub.unaccounted id job (List.range job.tasks.length)).length
  /-- These are the ones that were sent. -/
  names : sent = (hub.unaccounted id job (List.range job.tasks.length)).map job.taskId
  /-- These are the ones that were written down. -/
  queued : ∃ tasks, List.Forall₂ (fun index task => hub.buildTask job index = .ok task)
      (hub.unaccounted id job (List.range job.tasks.length)) tasks ∧
    hub.backlog.GrownBy after.backlog tasks

/-- What is left alone by a dispatch does not matter for what is handed out. -/
theorem HandedOut.of_steady {middle : Hub} {sent : List String} {count : Nat}
    (whole : HandedOut middle after id job sent count) (steady : Steady hub middle)
    (accountant : middle.accountant = hub.accountant) (backlog : middle.backlog = hub.backlog) :
    HandedOut hub after id job sent count := by
  have same : middle.unaccounted id job (List.range job.tasks.length) =
      hub.unaccounted id job (List.range job.tasks.length) := by
    rw [unaccounted, unaccounted, accountant]
  obtain ⟨tasks, builds, writes⟩ := whole.queued
  refine ⟨whole.accounted, same ▸ whole.counted, same ▸ whole.names, tasks, ?_, ?_⟩
  · rw [← same]
    refine builds.imp fun index task built => ?_
    rw [← steady.buildTask]
    exact built
  · rw [← backlog]
    exact writes

/-- A job that accepts dispatch is handed out whole if handing it out succeeds. -/
theorem handedOut_dispatchJob (orderly : hub.Orderly)
    (found : hub.ledger.job? id = .ok (some job)) (accepts : job.state.acceptsDispatch = true)
    {count : Nat} (done : (hub.dispatchJob id now).2 = .ok count) :
    HandedOut hub (hub.dispatchJob id now).1 id job (hub.dispatchJobSent id now) count := by
  rw [dispatchJob] at done ⊢
  rw [dispatchJobSent_eq]
  rw [findJob_eq_ok_iff.2 found] at done ⊢
  dsimp only at done ⊢
  have handed := handed_dispatchTasks job id now (List.range job.tasks.length) 0 hub orderly
  obtain ⟨counted, names, queued⟩ :=
    dispatchTasks_of_ok job id now _ List.nodup_range 0 hub job orderly found accepts done
  obtain ⟨tasks, builds, writes⟩ := queued
  have grown := hub.backlog.grownBy_enqueueAll tasks
  rw [← writes] at grown
  refine ⟨?_, by rw [counted, Nat.zero_add], names, tasks, builds, grown⟩
  intro index inside
  by_cases present : hub.accountant.hasTask id (job.taskId index) = true
  · by_cases sent :
      job.taskId index ∈ dispatchTasksSent job id now (List.range job.tasks.length) hub
    · obtain ⟨record, entered, _⟩ := handed.pending _ sent
      exact hasTask_eq_true_iff.2 ⟨record, entered⟩
    · rw [hasTask, handed.others _ sent]
      exact present
  · have sent : job.taskId index ∈
        dispatchTasksSent job id now (List.range job.tasks.length) hub := by
      rw [names]
      refine List.mem_map_of_mem (List.mem_filter.2 ⟨List.mem_range.2 inside, ?_⟩)
      simpa using present
    obtain ⟨record, entered, _⟩ := handed.pending _ sent
    exact hasTask_eq_true_iff.2 ⟨record, entered⟩

/-- A job that is started is handed out whole if the start succeeds. -/
theorem handedOut_startJob (orderly : hub.Orderly) (found : hub.ledger.job? id = .ok (some job))
    {count : Nat} (done : (hub.startJob id now).2 = .ok count) :
    HandedOut hub (hub.startJob id now).1 id job (hub.startJobSent id now) count := by
  obtain ⟨ledger, moves, restated⟩ :=
    moveJob_of_stored orderly.filed found [.ready, .running, .pause] .resume now
  rw [startJob] at done ⊢
  rw [startJobSent_eq]
  rw [moves] at done ⊢
  dsimp only at done ⊢
  split at done
  · cases done
  · next unfinished =>
    rw [if_neg unfinished, if_neg unfinished]
    have accepts := Job.resumed_acceptsDispatch unfinished
    have steady : Steady hub { hub with ledger := ledger } :=
      ⟨restated.resources, restated.executions, restated.latest, rfl, rfl, rfl⟩
    have resumed : Orderly { hub with ledger := ledger } :=
      ⟨orderly.sound, restated.filed, orderly.free⟩
    have whole := handedOut_dispatchJob resumed restated.is accepts done
    rcases moved_eq job [.ready, .running, .pause] .resume now with same | same
    · rw [same] at whole
      exact whole.of_steady steady rfl rfl
    · rw [same] at whole
      have whole := whole.of_steady steady rfl rfl
      exact ⟨whole.accounted, whole.counted, whole.names, whole.queued⟩

end Hub

end MediaHarvest
