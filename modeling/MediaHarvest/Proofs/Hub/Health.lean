import MediaHarvest.Proofs.Hub.Completeness

/-!
# Hubs with open nodes

A hub that has nodes, all of which take tasks, hands out every task that it can build.  So a job
that is not finished can be started on it, however much of it was handed out before.
-/

namespace MediaHarvest.Hub

open Ledger Accountant

variable {hub : Hub} {id : String} {job stored : Job} {task : Task} {now : Instant}

/-! ## Picking a node -/

/-- Among positions the one that is picked has the lowest load. -/
theorem leastLoaded_cons (load : Nat → Nat) (first : Nat) (rest : List Nat) :
    ∃ picked ∈ first :: rest, leastLoaded load (first :: rest) = some picked ∧
      ∀ other ∈ first :: rest, load picked ≤ load other := by
  induction rest generalizing first with
  | nil => exact ⟨first, List.mem_cons_self, rfl, by simp⟩
  | cons second rest ih =>
      obtain ⟨picked, mem, same, least⟩ := ih second
      rw [leastLoaded, same]
      dsimp only
      split
      · next less =>
        exact ⟨picked, List.mem_cons_of_mem _ mem, rfl,
          List.forall_mem_cons.2 ⟨Nat.le_of_lt less, least⟩⟩
      · next more =>
        refine ⟨first, List.mem_cons_self, rfl, List.forall_mem_cons.2 ⟨Nat.le_refl _, ?_⟩⟩
        exact fun other mem => Nat.le_trans (Nat.le_of_not_lt more) (least other mem)

/-- Every node has its turn. -/
theorem mem_turnOrder {turn count position : Nat} :
    position ∈ turnOrder turn count ↔ position < count := by
  rw [turnOrder, List.mem_map]
  constructor
  · rintro ⟨offset, mem, rfl⟩
    exact Nat.mod_lt _ (Nat.zero_lt_of_lt (List.mem_range.1 mem))
  · intro inside
    have positive : 0 < count := Nat.zero_lt_of_lt inside
    have small := Nat.mod_lt turn positive
    refine ⟨(position + (count - turn % count)) % count,
      List.mem_range.2 (Nat.mod_lt _ positive), ?_⟩
    have whole : turn + (position + (count - turn % count)) =
        position + count * (turn / count + 1) := by
      have parts := Nat.div_add_mod turn count
      rw [Nat.mul_add, Nat.mul_one]
      omega
    rw [Nat.add_mod_mod, whole, Nat.add_mul_mod_self_left, Nat.mod_eq_of_lt inside]

/-- If there are nodes, one of them with the lowest load is picked. -/
theorem pickNode_of_nodes (some : hub.nodes ≠ []) :
    ∃ index node, hub.pickNode = .some index ∧ hub.nodes[index]? = .some node ∧
      ∀ other < hub.nodes.length, hub.loadAt index ≤ hub.loadAt other := by
  have positive : 0 < hub.nodes.length := List.length_pos_iff.2 some
  rw [pickNode]
  cases order : turnOrder hub.turn hub.nodes.length with
  | nil =>
      have first : 0 ∈ turnOrder hub.turn hub.nodes.length := mem_turnOrder.2 positive
      rw [order] at first
      cases first
  | cons first rest =>
      obtain ⟨picked, mem, same, least⟩ := leastLoaded_cons hub.loadAt first rest
      rw [← order] at mem least
      exact ⟨picked, _, same, List.getElem?_eq_getElem (mem_turnOrder.1 mem),
        fun other inside => least other (mem_turnOrder.2 inside)⟩

/-! ## Handing out -/

/-- There are nodes, and all of them take tasks. -/
structure Staffed (hub : Hub) : Prop where
  some : hub.nodes ≠ []
  healthy : hub.isHealthy = true

/-- A node that was given a task takes further ones. -/
theorem Staffed.delivered {nodes : List Node} {node : String} (staffed : Staffed hub)
    (delivered : Delivered hub.nodes nodes task node) {after : Hub} (same : after.nodes = nodes) :
    Staffed after := by
  obtain ⟨index, taker, inbox, there, _, taken, rfl⟩ := delivered
  have healthy := List.all_eq_true.1 staffed.healthy
  have isOpen : inbox.isOpen = true := by
    rw [Channel.send?] at taken
    split at taken
    · next isOpen =>
      cases taken
      exact isOpen
    · cases taken
  constructor
  · rw [same]
    exact fun none => staffed.some ((List.set_eq_nil_iff _ _).1 none)
  · rw [isHealthy, same]
    refine List.all_eq_true.2 fun other mem => ?_
    rcases List.mem_or_eq_of_mem_set mem with before | rfl
    · exact healthy other before
    · exact isOpen

/-- A dispatch succeeds where there are nodes that take tasks, and leaves them so. -/
theorem dispatch_of_staffed (orderly : hub.Orderly) (staffed : Staffed hub)
    (found : hub.ledger.job? id = .ok (some job)) (accepts : job.state.acceptsDispatch = true)
    (active : hub.accountant.retired.contains id = false) (task : Task) (now : Instant) :
    (∃ dispatched, (hub.dispatch id task now).2 = .ok dispatched) ∧
      Staffed (hub.dispatch id task now).1 := by
  by_cases present : hub.accountant.hasTask id task.id = true
  · have same : hub.dispatch id task now = (hub, .ok .alreadyAssigned) := by
      rw [dispatch, findJob_eq_ok_iff.2 found]
      simp [accepts, present]
    rw [same]
    exact ⟨⟨_, rfl⟩, staffed⟩
  · have missing : hub.accountant.hasTask id task.id = false := by simpa using present
    obtain ⟨index, node, picked, there, _⟩ := pickNode_of_nodes staffed.some
    obtain ⟨accountant, assigned, rewritten⟩ :=
      assign_of_new orderly.sound active missing task node.id
    obtain ⟨ledger, begins, _⟩ :=
      begin_of_stored
        { hub with
          backlog := (hub.backlog.enqueue task).2
          turn := hub.turn + 1
          accountant := accountant }
        orderly.filed found accepts now
    have isOpen : node.inbox.isOpen = true :=
      List.all_eq_true.1 staffed.healthy node (List.mem_of_getElem? there)
    have sent : ∃ dispatched, (hub.dispatch id task now).2 = .ok dispatched := by
      rw [dispatch, findJob_eq_ok_iff.2 found]
      simp only [accepts, missing, Bool.not_true, Bool.false_eq_true, if_false]
      rw [place, picked]
      dsimp only
      rw [there]
      dsimp only [Backlog.enqueue] at begins ⊢
      rw [assigned]
      dsimp only
      rw [begins]
      dsimp only
      rw [deliver, Channel.send?, if_pos isOpen]
      exact ⟨_, rfl⟩
    refine ⟨sent, ?_⟩
    obtain ⟨dispatched, done⟩ := sent
    have ends := dispatching orderly.sound orderly.filed id task now
    rw [done] at ends
    generalize (hub.dispatch id task now).1 = after at ends ⊢
    cases ends with
    | held => exact staffed
    | assigned => exact staffed
    | sent _ _ _ _ _ _ delivered => exact staffed.delivered delivered rfl

/-- Every task that can be built is handed out. -/
theorem dispatchTasks_of_staffed (job : Job) (id : String) (now : Instant) (indices : List Nat)
    (sent : Nat) (hub : Hub) (stored : Job) (orderly : hub.Orderly) (staffed : Staffed hub)
    (found : hub.ledger.job? id = .ok (some stored))
    (accepts : stored.state.acceptsDispatch = true)
    (active : hub.accountant.retired.contains id = false)
    (builds : ∀ index ∈ indices, ∃ task, hub.buildTask job index = .ok task) :
    ∃ count, (dispatchTasks job id now indices sent hub).2 = .ok count := by
  induction indices generalizing sent hub stored with
  | nil => exact ⟨sent, rfl⟩
  | cons index rest ih =>
      obtain ⟨task, built⟩ := builds index List.mem_cons_self
      obtain ⟨⟨dispatched, done⟩, next⟩ :=
        dispatch_of_staffed orderly staffed found accepts active task now
      have success := dispatch_of_accepting orderly found accepts task now dispatched done
      have handed := handed_dispatch orderly id task now
      rw [dispatchTasks, built]
      dsimp only
      generalize hub.dispatchSent id task now = names at handed
      generalize hub.dispatch id task now = result at done next success handed ⊢
      obtain ⟨after, answer⟩ := result
      dsimp only at done
      subst done
      have active' : after.accountant.retired.contains id = false := by
        rw [handed.retired]
        exact active
      have builds' : ∀ other ∈ rest, ∃ task, after.buildTask job other = .ok task := by
        intro other mem
        rw [handed.steady.buildTask]
        exact builds other (List.mem_cons_of_mem _ mem)
      have orderly' := handed.touched.orderly
      rcases success with ⟨rfl, _, same⟩ | ⟨number, node, last, rfl, _, _, stays, accepting⟩
      · have same : after = hub := same
        exact ih sent after stored orderly' next (same ▸ found) accepts active' builds'
      · exact ih (sent + 1) after last orderly' next stays accepting active' builds'

/-- A stored job that is neither finished nor retired can be started, if its tasks can be built and
there are nodes that take them. -/
theorem startJob_of_staffed (orderly : hub.Orderly) (staffed : Staffed hub)
    (found : hub.ledger.job? id = .ok (some job)) (unfinished : job.state ≠ .finished)
    (active : hub.accountant.retired.contains id = false)
    (builds : ∀ index < job.tasks.length, ∃ task, hub.buildTask job index = .ok task)
    (now : Instant) : ∃ count, (hub.startJob id now).2 = .ok count := by
  obtain ⟨ledger, moves, restated⟩ :=
    moveJob_of_stored orderly.filed found [.ready, .running, .pause] .resume now
  have goes : job.Continues (moved job [.ready, .running, .pause] .resume now) :=
    job.continues_moved (by decide) (by decide) now
  have steady : Steady hub { hub with ledger := ledger } :=
    ⟨restated.resources, restated.executions, restated.latest, rfl, rfl, rfl⟩
  have unfinished := mt goes.finished.1 unfinished
  rw [startJob, moves]
  dsimp only
  rw [if_neg unfinished, dispatchJob, findJob_eq_ok_iff.2 restated.is]
  refine dispatchTasks_of_staffed _ id now _ 0 { hub with ledger := ledger } _
    ⟨orderly.sound, restated.filed, orderly.free⟩ ⟨staffed.some, staffed.healthy⟩ restated.is
    (Job.resumed_acceptsDispatch unfinished) active ?_
  intro index mem
  rw [goes.tasks, List.mem_range] at mem
  obtain ⟨task, built⟩ := builds index mem
  rw [steady.buildTask]
  rcases moved_eq job [.ready, .running, .pause] .resume now with same | same
  · rw [same]
    exact ⟨task, built⟩
  · rw [same]
    exact ⟨task, built⟩

end MediaHarvest.Hub
