import MediaHarvest.Proofs.Accounting.Runs
import MediaHarvest.Proofs.Hub.Attempts
import MediaHarvest.Proofs.Hub.Loads
import MediaHarvest.Proofs.Hub.Picking

/-!
# Tasks are spread over the nodes

Whatever was called before, a task goes to a node with the fewest tasks that have not ended
(`Attempt.Lands`).  So if no task has waited for a node at first and none ends or is removed, no node
gets two tasks ahead of another (`Level`), in whatever order jobs and tasks are handed out.
-/

namespace MediaHarvest

namespace Accountant

variable {accountant after : Accountant} {job id : String} {call : AccountingCall}

theorem loads_recordOnly (accountant : Accountant) (job id : String) (state : TaskState) :
    (accountant.recordOnly job id state).1.loads = accountant.loads := by
  rw [recordOnly]
  dsimp only
  split <;> rfl

/-- The end of a task makes no load heavier. -/
theorem load_apply_le (accountant : Accountant) (job id : String) (state : TaskState)
    (node : String) : (accountant.apply job id state).1.load node ≤ accountant.load node := by
  have same := accountant.loads_recordOnly job id state
  have kept : (accountant.recordOnly job id state).1.load node = accountant.load node := by
    rw [load, same]
    rfl
  rw [apply]
  generalize accountant.recordOnly job id state = result at kept
  obtain ⟨noted, recorded, taker⟩ := result
  split
  · next same =>
    cases same
    rw [load_release, kept]
    exact Nat.sub_le _ _
  · next same =>
    cases same
    exact Nat.le_of_eq kept

/-- The end of a job makes no load heavier. -/
theorem load_retire_le (accountant : Accountant) (job node : String) :
    (accountant.retire job job).load node ≤ accountant.load node := by
  rw [retire]
  split
  · exact Nat.le_refl _
  · dsimp only
    rw [load_releaseAll]
    exact Nat.sub_le _ _

theorem load_removeJob_le (accountant : Accountant) (job node : String) :
    (accountant.removeJob job).load node ≤ accountant.load node := by
  rw [removeJob]
  split
  · exact load_retire_le accountant job node
  · exact Nat.le_refl _

/-- No call of the accountant holds an account. -/
theorem Effect.holder (effect : Effect accountant after call) :
    after.holder = accountant.holder := by
  cases effect with
  | idle same => rw [same]
  | rewritten change => exact change.holder
  | closed change => exact change.holder

end Accountant

/-- Whether a call is there to hand out tasks. -/
def Call.handsOut : Call → Bool
  | dispatch .. | dispatchJob _ | startJob _ => true
  | _ => false

/-- Whether a call may end or remove tasks. -/
def Call.ends : Call → Bool
  | report _ | reconcile _ | removeJob _ => true
  | _ => false

namespace Hub

open Ledger Accountant

variable {hub after : Hub} {id : String} {job : Job} {task : Task} {now : Instant}
  {names : List String}

/-! ## The hubs that are told of -/

/-- The states that a hub can come to whose accounts were empty at first.  Reports that are on
record tell of tasks that have ended. -/
inductive Attained : Hub → Prop where
  | start {hub : Hub} (fresh : hub.accountant = .empty) (filed : hub.ledger.Filed)
      (concluded : hub.ledger.Concluded) : Attained hub
  | call {hub : Hub} (before : Attained hub) (call : Call) (now : Instant) :
      Attained (call.perform now hub).1
  /-- The accounts were used by someone else. -/
  | account {hub : Hub} (before : Attained hub) (call : AccountingCall) :
      Attained { hub with accountant := call.perform hub.accountant }
  /-- Anything else was done, to the ledger, to the backlog, to the nodes or to their turns. -/
  | apart {hub after : Hub} (before : Attained hub) (same : after.accountant = hub.accountant)
      (filed : after.ledger.Filed) (concluded : after.ledger.Concluded) : Attained after

/-- A hub that was attained is in order, and its loads are right. -/
theorem Attained.sound (attained : Attained hub) : hub.Orderly ∧ hub.Weighed := by
  induction attained with
  | start fresh filed concluded =>
      refine ⟨⟨?_, filed, ?_⟩, ?_, concluded⟩
      · rw [fresh]
        exact sound_empty
      · rw [fresh]
        rfl
      · rw [fresh]
        exact balanced_empty
  | call before call now ih =>
      exact ⟨(performed ih.1 call now).orderly ih.1, ih.2.perform ih.1 call now⟩
  | account before call ih =>
      have step := effect ih.1.sound call
      exact ⟨⟨step.sound ih.1.sound, ih.1.filed, step.holder.trans ih.1.free⟩,
        ih.2.balanced.perform call, ih.2.concluded⟩
  | apart before same filed concluded ih =>
      exact ⟨⟨same ▸ ih.1.sound, filed, same ▸ ih.1.free⟩, same ▸ ih.2.balanced, concluded⟩

/-- A hub that was attained, with nodes of the given names. -/
structure Manned (names : List String) (hub : Hub) : Prop where
  attained : Attained hub
  named : hub.nodes.map Node.id = names

theorem Manned.orderly (manned : Manned names hub) : hub.Orderly := manned.attained.sound.1

theorem Manned.balanced (manned : Manned names hub) : hub.accountant.Balanced :=
  manned.attained.sound.2.balanced

/-! ## Which node takes a task -/

/-- A task that is not accounted, of a job that accepts dispatch, goes to the node that is chosen, or
to none. -/
def Attempt.Lands (attempt : Attempt) : Prop :=
  ∀ job, attempt.hub.ledger.job? attempt.job = .ok (some job) → job.state.acceptsDispatch = true →
    attempt.hub.accountant.hasTask attempt.job attempt.task.id = false →
    ∃ index node, Chosen attempt.hub index node ∧
      Landing attempt.hub attempt.job attempt.task index node
        (attempt.hub.dispatch attempt.job attempt.task attempt.now).1
        (attempt.hub.dispatch attempt.job attempt.task attempt.now).2

theorem Manned.lands (manned : Manned names hub) (some : names ≠ []) (id : String) (task : Task)
    (now : Instant) : Attempt.Lands ⟨hub, id, task, now⟩ := by
  intro job found accepts missing
  have nodes : hub.nodes ≠ [] := by
    intro none
    rw [← manned.named, none] at some
    exact some rfl
  obtain ⟨index, node, chosen⟩ := exists_chosen manned.balanced nodes
  exact ⟨index, node, chosen, landing_dispatch manned.balanced found accepts missing chosen now⟩

theorem persists_manned (names : List String) : Persists (Manned names) where
  dispatch {hub} id task now manned := by
    refine ⟨.call manned.attained (.dispatch id task) now, ?_⟩
    rcases delivered_dispatch manned.orderly id task now with same | ⟨node, delivered⟩
    · rw [same]
      exact manned.named
    · exact delivered.map_id.trans manned.named
  move {hub} id now manned := by
    have moves : Handed hub (hub.moveJob id [.ready, .running, .pause] .resume now).1 id [] :=
      handed_moveJob manned.orderly id (by decide) (by decide) now
    have concluded := manned.attained.sound.2.concluded.of_executions_eq moves.steady.executions
    refine ⟨.apart manned.attained (accountant_moveJob ..) moves.touched.orderly.filed concluded, ?_⟩
    rw [(undisturbed_moveJob ..).nodes]
    exact manned.named

theorem Manned.perform (manned : Manned names hub) (call : Call) (now : Instant) :
    Manned names (call.perform now hub).1 := by
  refine ⟨.call manned.attained call now, ?_⟩
  have persists := persists_manned names
  cases call with
  | dispatch id task => exact (persists.dispatch id task now manned).named
  | dispatchJob id => exact (persists.dispatchJob manned id now).1.named
  | startJob id => exact (persists.startJob manned id now).1.named
  | stopJob id => exact (undisturbed_stopJob hub id now).nodes ▸ manned.named
  | report completion => exact (undisturbed_onCompletion hub completion now).nodes ▸ manned.named
  | reconcile id => exact (undisturbed_reconcile hub id now).nodes ▸ manned.named
  | record completion => exact (undisturbed_record hub completion now).nodes ▸ manned.named
  | removeJob id => exact manned.named
  | takeTask index =>
      rw [Call.perform, takeTask]
      cases there : hub.nodes[index]? with
      | none => exact manned.named
      | some node =>
          exact (map_set { node with inbox := node.inbox.receive.2 } there rfl).trans manned.named
  | closeNode index =>
      rw [Call.perform, closeNode]
      cases there : hub.nodes[index]? with
      | none => exact manned.named
      | some node =>
          exact (map_set { node with inbox := node.inbox.close } there rfl).trans manned.named

/-- A property that handing out keeps holds of the hubs in which the dispatches of a call are made. -/
theorem Persists.callAttempts {holds : Hub → Prop} (persists : Persists holds) (before : holds hub)
    (call : Call) (now : Instant) : ∀ attempt ∈ callAttempts call now hub, holds attempt.hub := by
  cases call with
  | dispatch id task => simpa [Hub.callAttempts] using before
  | dispatchJob id => exact (persists.dispatchJob before id now).2
  | startJob id => exact (persists.startJob before id now).2
  | stopJob | report | reconcile | record | removeJob | takeTask | closeNode =>
      simp [Hub.callAttempts]

theorem Manned.attempts (calls : List (Call × Instant)) (hub : Hub) (manned : Manned names hub) :
    ∀ attempt ∈ attempts calls hub, Manned names attempt.hub := by
  induction calls generalizing hub with
  | nil => simp [Hub.attempts]
  | cons step rest ih =>
      obtain ⟨call, now⟩ := step
      intro attempt mem
      rcases List.mem_append.1 mem with mem | mem
      · exact (persists_manned names).callAttempts manned call now attempt mem
      · exact ih _ (manned.perform call now) attempt mem

/-! ## Level loads -/

/-- No node has more than one task that has not ended more than another. -/
def Level (hub : Hub) : Prop :=
  ∀ first ∈ hub.nodes, ∀ second ∈ hub.nodes,
    hub.accountant.outstandingOn first.id ≤ hub.accountant.outstandingOn second.id + 1

theorem mem_of_named (named : after.nodes.map Node.id = hub.nodes.map Node.id) {node : Node}
    (mem : node ∈ after.nodes) : ∃ other ∈ hub.nodes, other.id = node.id :=
  List.mem_map.1 (named ▸ List.mem_map_of_mem mem)

theorem Level.of_same (level : Level hub)
    (named : after.nodes.map Node.id = hub.nodes.map Node.id)
    (owes : ∀ node, after.accountant.outstandingOn node = hub.accountant.outstandingOn node) :
    Level after := by
  intro first mem second mem'
  obtain ⟨one, mem, same⟩ := mem_of_named named mem
  obtain ⟨other, mem', same'⟩ := mem_of_named named mem'
  rw [owes, owes, ← same, ← same']
  exact level one mem other mem'

/-- If one of the nodes with the fewest tasks is given a further one, the loads stay level. -/
theorem Level.taken {index : Nat} {node : Node} (level : Level hub)
    (chosen : Chosen hub index node)
    (named : after.nodes.map Node.id = hub.nodes.map Node.id)
    (owes : ∀ other, after.accountant.outstandingOn other =
      hub.accountant.outstandingOn other + if node.id = other then 1 else 0) : Level after := by
  intro first mem second mem'
  obtain ⟨one, mem, same⟩ := mem_of_named named mem
  obtain ⟨other, mem', same'⟩ := mem_of_named named mem'
  have before := level one mem other mem'
  have least := chosen.least other mem'
  rw [owes, owes, ← same, ← same']
  by_cases taker : node.id = one.id
  · rw [if_pos taker, ← taker]
    omega
  · rw [if_neg taker]
    omega

/-- A dispatch changes nothing, or its task is one that is not accounted. -/
theorem dispatch_cases (hub : Hub) (id : String) (task : Task) (now : Instant) :
    (hub.dispatch id task now).1 = hub ∨ hub.nodes ≠ [] ∧ ∃ job,
      hub.ledger.job? id = .ok (some job) ∧ job.state.acceptsDispatch = true ∧
        hub.accountant.hasTask id task.id = false := by
  cases found : hub.findJob id with
  | error error =>
      left
      rw [dispatch, found]
  | ok job =>
      by_cases accepts : job.state.acceptsDispatch = true
      · by_cases missing : hub.accountant.hasTask id task.id = false
        · by_cases none : hub.nodes = []
          · left
            rw [dispatch_eq_place (findJob_eq_ok_iff.1 found) accepts missing, place, pickNode, none]
            rfl
          · exact .inr ⟨none, job, findJob_eq_ok_iff.1 found, accepts, missing⟩
        · left
          rw [dispatch, found]
          simp [accepts, missing]
      · left
        rw [dispatch, found]
        simp [accepts]

/-- A dispatch leaves every node as many tasks as it had, but for one more of the node that is
chosen. -/
theorem Manned.owes_dispatch (manned : Manned names hub) (id : String) (task : Task)
    (now : Instant) :
    (∀ other, (hub.dispatch id task now).1.accountant.outstandingOn other =
        hub.accountant.outstandingOn other) ∨
      ∃ index node, Chosen hub index node ∧
        ∀ other, (hub.dispatch id task now).1.accountant.outstandingOn other =
          hub.accountant.outstandingOn other + if node.id = other then 1 else 0 := by
  rcases hub.dispatch_cases id task now with same | ⟨nodes, job, found, accepts, missing⟩
  · rw [same]
    exact .inl fun _ => rfl
  · obtain ⟨index, node, chosen⟩ := exists_chosen manned.balanced nodes
    have landing := landing_dispatch manned.balanced found accepts missing chosen now
    generalize (hub.dispatch id task now).1 = after at landing ⊢
    generalize (hub.dispatch id task now).2 = answer at landing
    cases landing with
    | refused refuses nodes owes => exact .inl owes
    | taken accepts isOpen nodes owes => exact .inr ⟨index, node, chosen, owes⟩
    | closed accepts gone nodes owes => exact .inl owes

theorem Level.dispatch (level : Level hub) (manned : Manned names hub) (id : String) (task : Task)
    (now : Instant) : Level (hub.dispatch id task now).1 := by
  have named : (hub.dispatch id task now).1.nodes.map Node.id = hub.nodes.map Node.id :=
    ((persists_manned names).dispatch id task now manned).named.trans manned.named.symm
  rcases manned.owes_dispatch id task now with owes | ⟨index, node, chosen, owes⟩
  · exact level.of_same named owes
  · exact level.taken chosen named owes

/-- Neither the end of a task nor the end of a job makes a load heavier. -/
theorem lasting_load_le (node : String) (bound : Nat) :
    Lasting fun accountant => accountant.load node ≤ bound where
  apply {accountant} job id state _ before :=
    Nat.le_trans (load_apply_le accountant job id state node) before
  retire {accountant} job before := Nat.le_trans (load_retire_le accountant job node) before

/-- The other calls leave the accounts alone. -/
theorem accountant_perform {call : Call} (quiet : call.handsOut = false) (keeps : call.ends = false)
    (now : Instant) (hub : Hub) : (call.perform now hub).1.accountant = hub.accountant := by
  cases call with
  | dispatch | dispatchJob | startJob => cases quiet
  | report | reconcile | removeJob => cases keeps
  | stopJob id => exact accountant_stopJob hub id now
  | record completion =>
      cases idle_record hub completion now with
      | idle same => exact same
  | takeTask index =>
      cases idle_takeTask hub index with
      | idle same => exact same
  | closeNode index =>
      cases idle_closeNode hub index with
      | idle same => exact same

/-- A call that hands out nothing leaves no node with more tasks. -/
theorem Manned.owes_le (manned : Manned names hub) {call : Call} (quiet : call.handsOut = false)
    (now : Instant) (node : String) :
    (call.perform now hub).1.accountant.outstandingOn node ≤
      hub.accountant.outstandingOn node := by
  cases keeps : call.ends with
  | false =>
      rw [accountant_perform quiet keeps]
  | true =>
      have lasting := lasting_load_le node (hub.accountant.load node)
      have least := Nat.le_refl (hub.accountant.load node)
      rw [← (manned.perform call now).balanced node, ← manned.balanced node]
      cases call with
      | report completion => exact lasting.onCompletion manned.orderly least completion now
      | reconcile id =>
          exact lasting.reconcile manned.orderly least manned.attained.sound.2.concluded id now
      | removeJob id => exact load_removeJob_le hub.accountant id node
      | dispatch | dispatchJob | startJob | stopJob | record | takeTask | closeNode => cases keeps

/-- Handing out leaves no node with fewer tasks than a bound. -/
theorem persists_owes (names : List String) (bound : String → Nat) :
    Persists fun hub =>
      Manned names hub ∧ ∀ node, bound node ≤ hub.accountant.outstandingOn node where
  dispatch {hub} id task now before := by
    refine ⟨(persists_manned names).dispatch id task now before.1, fun node => ?_⟩
    rcases before.1.owes_dispatch id task now with owes | ⟨index, taker, chosen, owes⟩
    · rw [owes]
      exact before.2 node
    · rw [owes]
      exact Nat.le_add_right_of_le (before.2 node)
  move {hub} id now before := by
    refine ⟨(persists_manned names).move id now before.1, fun node => ?_⟩
    rw [accountant_moveJob]
    exact before.2 node

/-- A call that neither ends nor removes tasks leaves no node with fewer. -/
theorem Manned.le_owes (manned : Manned names hub) {call : Call} (keeps : call.ends = false)
    (now : Instant) (node : String) :
    hub.accountant.outstandingOn node ≤
      (call.perform now hub).1.accountant.outstandingOn node := by
  have persists := persists_owes names hub.accountant.outstandingOn
  have before : Manned names hub ∧ ∀ node, hub.accountant.outstandingOn node ≤
      hub.accountant.outstandingOn node := ⟨manned, fun _ => Nat.le_refl _⟩
  cases hands : call.handsOut with
  | false => rw [accountant_perform hands keeps]
  | true =>
      cases call with
      | dispatch id task => exact (persists.dispatch id task now before).2 node
      | dispatchJob id => exact (persists.dispatchJob before id now).1.2 node
      | startJob id => exact (persists.startJob before id now).1.2 node
      | stopJob | report | reconcile | record | removeJob | takeTask | closeNode => cases hands

theorem persists_level (names : List String) :
    Persists fun hub => Manned names hub ∧ Level hub where
  dispatch {hub} id task now before :=
    ⟨(persists_manned names).dispatch id task now before.1, before.2.dispatch before.1 id task now⟩
  move {hub} id now before := by
    have moved := (persists_manned names).move id now before.1
    refine ⟨moved, before.2.of_same (moved.named.trans before.1.named.symm) fun node => ?_⟩
    rw [accountant_moveJob]

/-- A call that leaves no node with fewer tasks keeps the loads level. -/
theorem Level.perform (level : Level hub) (manned : Manned names hub) (call : Call) (now : Instant)
    (fills : ∀ node, hub.accountant.outstandingOn node ≤
      (call.perform now hub).1.accountant.outstandingOn node) :
    Level (call.perform now hub).1 := by
  have persists := persists_level names
  cases hands : call.handsOut with
  | false =>
      have named := (manned.perform call now).named.trans manned.named.symm
      exact level.of_same named fun node =>
        Nat.le_antisymm (manned.owes_le hands now node) (fills node)
  | true =>
      cases call with
      | dispatch id task => exact level.dispatch manned id task now
      | dispatchJob id => exact (persists.dispatchJob ⟨manned, level⟩ id now).1.2
      | startJob id => exact (persists.startJob ⟨manned, level⟩ id now).1.2
      | stopJob | report | reconcile | record | removeJob | takeTask | closeNode => cases hands

/-! ## Every run -/

/-- No call of a run leaves a node with fewer tasks that have not ended, as the end of a task or the
removal of a job would. -/
def Fills : List (Call × Instant) → Hub → Prop
  | [], _ => True
  | (call, now) :: rest, hub =>
      (∀ node, hub.accountant.outstandingOn node ≤
        (call.perform now hub).1.accountant.outstandingOn node) ∧
      Fills rest (call.perform now hub).1

theorem Manned.fills (calls : List (Call × Instant)) (hub : Hub) (manned : Manned names hub)
    (keep : ∀ step ∈ calls, step.1.ends = false) : Fills calls hub := by
  induction calls generalizing hub with
  | nil => trivial
  | cons step rest ih =>
      obtain ⟨call, now⟩ := step
      obtain ⟨here, there⟩ := List.forall_mem_cons.1 keep
      exact ⟨manned.le_owes here now, ih _ (manned.perform call now) there⟩

theorem Level.run (calls : List (Call × Instant)) (hub : Hub) (level : Level hub)
    (manned : Manned names hub) (fills : Fills calls hub) :
    Level (run calls hub).1 ∧ ∀ attempt ∈ attempts calls hub, Level attempt.hub := by
  induction calls generalizing hub with
  | nil => exact ⟨level, by simp [attempts]⟩
  | cons step rest ih =>
      obtain ⟨call, now⟩ := step
      obtain ⟨here, there⟩ := fills
      obtain ⟨last, others⟩ :=
        ih _ (level.perform manned call now here) (manned.perform call now) there
      refine ⟨last, fun attempt mem => ?_⟩
      rcases List.mem_append.1 mem with mem | mem
      · exact ((persists_level names).callAttempts ⟨manned, level⟩ call now attempt mem).2
      · exact others attempt mem

/-- If no task has not ended, the loads are level. -/
theorem level_of_idle (idle : hub.accountant.outstanding = []) : Level hub := by
  intro first _ second _
  rw [outstandingOn, idle]
  exact Nat.zero_le _

/-- How a hub spreads tasks. -/
structure Spreads (hub : Hub) : Prop where
  /-- Every task goes to a node with the fewest tasks, the first in turn. -/
  here : ∀ id task now, Attempt.Lands ⟨hub, id, task, now⟩
  /-- So does every task of a run, whatever ends or is removed in between. -/
  lands : ∀ calls, ∀ attempt ∈ attempts calls hub, attempt.Lands
  /-- Whatever the run hands out goes through one of these dispatches. -/
  journal : ∀ calls, sentTasks (run calls hub).2 = (attempts calls hub).flatMap Attempt.sent
  /-- Tasks only come in while there is neither a report nor a second look nor a removal. -/
  fills : ∀ calls, (∀ step ∈ calls, step.1.ends = false) → Fills calls hub
  /-- While tasks only come in, no node gets more than one task ahead of another. -/
  level : hub.accountant.outstanding = [] → ∀ calls, Fills calls hub →
    Level (run calls hub).1 ∧ ∀ attempt ∈ attempts calls hub, Level attempt.hub

/-- Tasks are spread evenly, whatever was called before. -/
theorem spreads_of_attained (attained : Attained hub) (some : hub.nodes ≠ []) : Spreads hub := by
  have manned : Manned (hub.nodes.map Node.id) hub := ⟨attained, rfl⟩
  have names : hub.nodes.map Node.id ≠ [] := fun none => some (List.map_eq_nil_iff.1 none)
  constructor
  · exact manned.lands names
  · intro calls attempt mem
    obtain ⟨middle, id, task, now⟩ := attempt
    exact (manned.attempts calls hub _ mem).lands names id task now
  · exact fun calls => (sent_attempts calls hub).symm
  · exact fun calls keep => manned.fills calls hub keep
  · exact fun idle calls fills => (level_of_idle idle).run calls hub manned fills

/-- A hub with two nodes to which nothing was handed out yet. -/
theorem spreads_pairHub :
    Attained pairHub ∧ pairHub.nodes ≠ [] ∧ pairHub.accountant.outstanding = [] ∧
      Fills [(.startJob "7", .epoch), (.closeNode 1, .epoch), (.startJob "7", .epoch)] pairHub ∧
      Level (run [(.startJob "7", .epoch), (.closeNode 1, .epoch), (.startJob "7", .epoch)]
        pairHub).1 ∧
      ∃ index node, Chosen pairHub index node ∧
        Landing pairHub "7" Wire.linkTask index node (pairHub.dispatch "7" Wire.linkTask .epoch).1
          (pairHub.dispatch "7" Wire.linkTask .epoch).2 := by
  have attained : Attained pairHub := .start rfl pairHub_filed (concluded_of_bare rfl)
  have some : pairHub.nodes ≠ [] := by decide
  have spreads := spreads_of_attained attained some
  have fills := spreads.fills
    [(.startJob "7", .epoch), (.closeNode 1, .epoch), (.startJob "7", .epoch)] (by decide)
  have missing : pairHub.accountant.hasTask "7" Wire.linkTask.id = false := by decide
  exact ⟨attained, some, rfl, fills, (spreads.level rfl _ fills).1,
    spreads.here "7" Wire.linkTask .epoch twoLinks pairHub_stored rfl missing⟩

end Hub

end MediaHarvest
