import MediaHarvest.Proofs.Accounting.Loads
import MediaHarvest.Proofs.Hub.FailedDispatch
import MediaHarvest.Proofs.Hub.Health

/-!
# Which node takes a task

The node that is picked has the fewest tasks that have not ended, and among several of them it is the
first one in turn (`Chosen`).  A dispatch of a task that is not accounted goes to that node, or the
task is left with nobody (`Landing`).
-/

namespace MediaHarvest

namespace Accountant

variable {accountant after : Accountant} {job id node : String} {task : Task}

/-- A task that is entered is on the load of its node. -/
theorem load_assign (missing : accountant.hasTask job id = false)
    (done : accountant.assign job id task node = .ok after) (other : String) :
    after.load other = accountant.load other + if node = other then 1 else 0 := by
  have accepts : ¬ accountant.Refuses job := by
    intro refuses
    rw [assign_of_refuses refuses] at done
    cases done
  obtain ⟨isOpen, tasks⟩ := getD_of_accepts accepts
  rw [assign, if_neg fun gone => accepts (.inl gone)] at done
  generalize (accountant.jobs.get? job).getD .empty = account at isOpen tasks done
  have absent : account.tasks.contains id = false := by
    rw [SortedMap.contains, ← tasks]
    exact missing
  simp only [isOpen, absent, Bool.false_eq_true, if_false] at done
  cases done
  show ((accountant.loads.insert node (accountant.load node + 1)).get? other).getD 0 = _
  rw [SortedMap.get?_insert]
  by_cases same : node = other
  · rw [if_pos same.symm, if_pos same, same]
    rfl
  · rw [if_neg (Ne.symm same), if_neg same]
    rfl

end Accountant

namespace Hub

open Accountant

variable {hub : Hub} {id : String} {job : Job} {task : Task} {now : Instant} {index : Nat}
  {node : Node}

/-! ## The choice -/

/-- The positions before the one that is picked have higher loads. -/
theorem leastLoaded_first {load : Nat → Nat} {positions : List Nat} {picked : Nat}
    (same : leastLoaded load positions = some picked) :
    ∃ offset : Nat, positions[offset]? = some picked ∧
      ∀ earlier < offset, ∃ passed, positions[earlier]? = some passed ∧
        load picked < load passed := by
  induction positions with
  | nil => cases same
  | cons first rest ih =>
      rw [leastLoaded] at same
      cases best : leastLoaded load rest with
      | none =>
          rw [best] at same
          cases same
          exact ⟨0, rfl, fun _ before => absurd before (Nat.not_lt_zero _)⟩
      | some other =>
          rw [best] at same
          dsimp only at same
          split at same
          · next less =>
            cases same
            obtain ⟨offset, there, earlier⟩ := ih best
            refine ⟨offset + 1, there, fun before small => ?_⟩
            cases before with
            | zero => exact ⟨first, rfl, less⟩
            | succ before => exact earlier before (Nat.lt_of_succ_lt_succ small)
          · cases same
            exact ⟨0, rfl, fun _ before => absurd before (Nat.not_lt_zero _)⟩

/-- A node has the fewest tasks that have not ended, and it is the first such node, counted from the
one whose turn it is. -/
structure Chosen (hub : Hub) (index : Nat) (node : Node) : Prop where
  picked : hub.pickNode = some index
  there : hub.nodes[index]? = some node
  least : ∀ other ∈ hub.nodes,
    hub.accountant.outstandingOn node.id ≤ hub.accountant.outstandingOn other.id
  /-- The nodes whose turn comes before have more. -/
  first : ∃ offset < hub.nodes.length, index = (hub.turn + offset) % hub.nodes.length ∧
    ∀ earlier < offset, ∃ passed,
      hub.nodes[(hub.turn + earlier) % hub.nodes.length]? = some passed ∧
        hub.accountant.outstandingOn node.id < hub.accountant.outstandingOn passed.id

theorem getElem?_turnOrder {turn count offset position : Nat}
    (there : (turnOrder turn count)[offset]? = some position) :
    offset < count ∧ position = (turn + offset) % count := by
  rw [turnOrder, List.getElem?_map, Option.map_eq_some_iff] at there
  obtain ⟨other, inside, rfl⟩ := there
  obtain ⟨small, same⟩ := List.getElem?_eq_some_iff.1 inside
  rw [List.length_range] at small
  rw [List.getElem_range] at same
  exact ⟨small, by rw [same]⟩

/-- A node is chosen whenever there are nodes and their loads are right. -/
theorem exists_chosen (balanced : hub.accountant.Balanced) (some : hub.nodes ≠ []) :
    ∃ index node, Chosen hub index node := by
  obtain ⟨index, node, picked, there, least⟩ := pickNode_of_nodes some
  have loads : ∀ {position other}, hub.nodes[position]? = .some other →
      hub.loadAt position = hub.accountant.outstandingOn other.id := by
    intro position other there
    rw [loadAt, there]
    exact balanced other.id
  refine ⟨index, node, picked, there, fun other mem => ?_, ?_⟩
  · obtain ⟨position, inside, rfl⟩ := List.getElem_of_mem mem
    have low := least position inside
    rwa [loads there, loads (List.getElem?_eq_getElem inside)] at low
  · obtain ⟨offset, turn, earlier⟩ := leastLoaded_first picked
    obtain ⟨small, same⟩ := getElem?_turnOrder turn
    refine ⟨offset, small, same, fun before less => ?_⟩
    obtain ⟨position, passes, more⟩ := earlier before less
    obtain ⟨_, rfl⟩ := getElem?_turnOrder passes
    have inside : (hub.turn + before) % hub.nodes.length < hub.nodes.length :=
      Nat.mod_lt _ (List.length_pos_iff.2 some)
    have stands := List.getElem?_eq_getElem inside
    rw [loads there, loads stands] at more
    exact ⟨_, stands, more⟩

/-! ## The dispatch -/

/-- What becomes of a task that is not accounted, once a node is chosen for it. -/
inductive Landing (hub : Hub) (id : String) (task : Task) (index : Nat) (node : Node) (after : Hub) :
    Except DispatchError Dispatched → Prop where
  /-- The account of the job takes no tasks. -/
  | refused (refuses : hub.accountant.Refuses id) (nodes : after.nodes = hub.nodes)
      (owes : ∀ other,
        after.accountant.outstandingOn other = hub.accountant.outstandingOn other) :
      Landing hub id task index node after (.error (.accounting (.unknownJob id)))
  /-- The task waits for the node, which has one task more. -/
  | taken (accepts : ¬ hub.accountant.Refuses id) (isOpen : node.inbox.isOpen = true)
      (nodes : after.nodes = hub.nodes.set index
        { node with inbox := { node.inbox with waiting := node.inbox.waiting ++ [task] } })
      (owes : ∀ other, after.accountant.outstandingOn other =
        hub.accountant.outstandingOn other + if node.id = other then 1 else 0) :
      Landing hub id task index node after (.ok (.sent hub.backlog.next node.id))
  /-- The node takes no tasks. -/
  | closed {error : DispatchError} (accepts : ¬ hub.accountant.Refuses id)
      (gone : node.inbox.isOpen = false) (nodes : after.nodes = hub.nodes)
      (owes : ∀ other,
        after.accountant.outstandingOn other = hub.accountant.outstandingOn other) :
      Landing hub id task index node after (.error error)

/-- A task that is not accounted goes to the node that is chosen, or to none. -/
theorem landing_dispatch (balanced : hub.accountant.Balanced)
    (found : hub.ledger.job? id = .ok (some job)) (accepts : job.state.acceptsDispatch = true)
    (missing : hub.accountant.hasTask id task.id = false) (chosen : Chosen hub index node)
    (now : Instant) :
    Landing hub id task index node (hub.dispatch id task now).1 (hub.dispatch id task now).2 := by
  by_cases refuses : hub.accountant.Refuses id
  · rw [dispatch_of_refuses found accepts missing refuses chosen.picked chosen.there]
    exact .refused refuses rfl fun _ => rfl
  · obtain ⟨assigned, done, alike⟩ := alike_withdraw refuses missing task node.id
    let placed : Hub := { hub with
      backlog := (hub.backlog.enqueue task).2
      turn := hub.turn + 1
      accountant := assigned }
    have stored : placed.ledger.job? id = .ok (some job) := found
    obtain ⟨ledger, begins⟩ := begin_of_found stored now
    have counted := balanced.assign done
    have same : hub.dispatch id task now =
        ({ placed with ledger := ledger }).deliver hub.backlog.next id task index node now := by
      rw [dispatch_eq_place found accepts missing, place, chosen.picked]
      dsimp only
      rw [chosen.there]
      dsimp only [placed, Backlog.enqueue] at begins ⊢
      rw [done]
      dsimp only
      rw [begins]
    rw [same, deliver]
    cases isOpen : node.inbox.isOpen with
    | true =>
        have taken : node.inbox.send? task =
            some { node.inbox with waiting := node.inbox.waiting ++ [task] } := if_pos isOpen
        rw [taken]
        refine .taken refuses isOpen rfl fun other => ?_
        show assigned.outstandingOn other = _
        rw [← counted other, load_assign missing done, balanced other]
    | false =>
        have lost : node.inbox.send? task = none := if_neg (by rw [isOpen]; decide)
        rw [lost]
        have withdrawn := counted.withdraw id task.id
        have owes (other : String) : (assigned.withdraw id task.id).outstandingOn other =
            hub.accountant.outstandingOn other := by
          rw [← withdrawn other, alike.loads, balanced other]
        dsimp only
        split
        · exact .closed refuses isOpen rfl owes
        · exact .closed refuses isOpen rfl owes

end Hub

end MediaHarvest
