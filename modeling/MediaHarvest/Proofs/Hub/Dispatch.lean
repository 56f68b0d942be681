import MediaHarvest.Hub.Dispatch
import MediaHarvest.Proofs.Backlog
import MediaHarvest.Proofs.Hub.Basic

/-!
# What a dispatch can do

`Dispatching` lists the ends of a dispatch, each with the state it leaves behind.  Whatever its end,
a dispatch touches only the job it is for, and a job that accepts dispatch still does afterwards.
-/

namespace MediaHarvest

open Ledger Accountant

/-- The job once a task of it was handed out. -/
def Job.begun (job : Job) (now : Instant) : Job :=
  moved job [.ready, .resume] .running now

theorem Job.begun_acceptsDispatch {job : Job} {now : Instant}
    (accepts : job.state.acceptsDispatch = true) :
    (job.begun now).state.acceptsDispatch = true := by
  rw [begun, moved]
  split
  · exact accepts
  · rfl

namespace Hub

variable {hub after : Hub} {id : String} {job : Job} {task : Task} {now : Instant}

/-! ## The parts of a dispatch -/

theorem findJob_eq_ok_iff :
    hub.findJob id = .ok job ↔ hub.ledger.job? id = .ok (some job) := by
  rw [findJob]
  constructor
  · intro found
    obtain ⟨answer, read, found⟩ := bind_eq_ok_iff.1 found
    cases answer with
    | none => cases found
    | some other =>
        cases found
        exact mapError_eq_ok_iff.1 read
  · intro found
    rw [found]
    rfl

/-- A built task is what its job plans at its position, with the header fields that the latest
execution of its resource saw. -/
theorem buildTask_eq_ok_iff {index : Nat} :
    hub.buildTask job index = .ok task ↔
      ∃ planned resource headers, job.tasks[index]? = some planned ∧
        hub.ledger.resource? planned.resource = .ok resource ∧
        hub.previousHeaders job planned = .ok headers ∧
        task =
          { id := job.taskId index
            job := job.id
            resource := planned.resource
            url := resource.bind (·.url)
            kind := planned.kind
            limits := if job.limits = .unlimited then hub.defaultLimits else job.limits
            previousHeaders := headers
            subTasks := planned.subTasks
            owner := job.owner } := by
  rw [buildTask]
  constructor
  · intro built
    cases there : job.tasks[index]? with
    | none =>
        rw [there] at built
        cases built
    | some planned =>
        rw [there] at built
        obtain ⟨resource, read, built⟩ := bind_eq_ok_iff.1 built
        obtain ⟨headers, seen, built⟩ := bind_eq_ok_iff.1 built
        cases built
        exact ⟨planned, resource, headers, rfl, mapError_eq_ok_iff.1 read, seen, rfl⟩
  · rintro ⟨planned, resource, headers, there, read, seen, rfl⟩
    rw [there]
    dsimp only
    rw [read, seen]
    rfl

/-- The header fields that a conditional download is given are those of the latest record. -/
theorem previousHeaders_eq_ok {planned : PlannedTask} {headers : Headers}
    (given : hub.previousHeaders job planned = .ok headers) :
    headers = ∅ ∨ ∃ latest : Latest,
      hub.ledger.latest? ⟨planned.resource, planned.kind, job.role⟩ = .ok (some latest) ∧
      headers = latest.measurements.headers := by
  rw [previousHeaders] at given
  split at given
  · obtain ⟨answer, read, given⟩ := bind_eq_ok_iff.1 given
    cases answer with
    | none =>
        cases given
        exact .inl rfl
    | some latest =>
        cases given
        exact .inr ⟨latest, mapError_eq_ok_iff.1 read, rfl⟩
  · cases given
    exact .inl rfl

/-- A stored job is moved. -/
theorem moveJob_of_stored (filed : hub.ledger.Filed) (found : hub.ledger.job? id = .ok (some job))
    (sources : List JobState) (target : JobState) (now : Instant) :
    ∃ ledger, hub.moveJob id sources target now =
        ({ hub with ledger := ledger }, .ok (moved job sources target now)) ∧
      Restated hub.ledger ledger id job (moved job sources target now) := by
  obtain ⟨ledger, done, restated⟩ := Ledger.moveJob_of_stored filed found sources target now
  refine ⟨ledger, ?_, restated⟩
  rw [moveJob, done]

/-- A move that is refused changes nothing. -/
theorem moveJob_of_error {sources : List JobState} {target : JobState} {error : DispatchError}
    (refused : (hub.moveJob id sources target now).2 = .error error) :
    (hub.moveJob id sources target now).1 = hub := by
  revert refused
  rw [moveJob]
  split
  · rintro ⟨⟩
  · exact fun _ => rfl
  · exact fun _ => rfl

/-- A stored job begins. -/
theorem begin_of_stored (hub : Hub) (filed : hub.ledger.Filed)
    (found : hub.ledger.job? id = .ok (some job)) (accepts : job.state.acceptsDispatch = true)
    (now : Instant) :
    ∃ ledger, hub.begin job id now = ({ hub with ledger := ledger }, .ok ()) ∧
      Restated hub.ledger ledger id job (job.begun now) := by
  obtain ⟨ledger, moves, restated⟩ :=
    moveJob_of_stored filed found [.ready, .resume] .running now
  rw [begin, moves]
  cases state : job.state with
  | ready => exact ⟨ledger, rfl, restated⟩
  | resume => exact ⟨ledger, rfl, restated⟩
  | running =>
      have same : job.begun now = job := by rw [Job.begun, moved, if_pos (.inl state)]
      rw [same]
      exact ⟨hub.ledger, rfl, .refl filed found⟩
  | pause =>
      rw [state] at accepts
      cases accepts
  | finished =>
      rw [state] at accepts
      cases accepts

/-! ## The ends of a dispatch -/

/-- A task was put into the inbox of a node. -/
def Delivered (before after : List Node) (task : Task) (node : String) : Prop :=
  ∃ index taker inbox, before[index]? = some taker ∧ taker.id = node ∧
    taker.inbox.send? task = some inbox ∧ after = before.set index { taker with inbox := inbox }

/-- A replacement that looks the same changes nothing that is seen of a list. -/
theorem map_set {α β : Type} {list : List α} {index : Nat} {old : α} (new : α) {value : α → β}
    (there : list[index]? = some old) (same : value new = value old) :
    (list.set index new).map value = list.map value := by
  rcases List.getElem?_eq_some_iff.1 there with ⟨inside, rfl⟩
  rw [List.map_set, same, ← List.map_set, List.set_getElem_self]

/-- Delivering a task leaves the nodes their names. -/
theorem Delivered.map_id {before after : List Node} {node : String}
    (delivered : Delivered before after task node) :
    after.map Node.id = before.map Node.id := by
  rcases delivered with ⟨index, taker, inbox, there, _, _, rfl⟩
  exact map_set _ there rfl

/-- What a dispatch of a task can come to. -/
inductive Dispatching (hub : Hub) (id : String) (task : Task) (now : Instant) :
    Hub → Except DispatchError Dispatched → Prop where
  | unknown {error : DispatchError} (absent : hub.findJob id = .error error) :
      Dispatching hub id task now hub (.error error)
  /-- The job does not hand out tasks. -/
  | held {job : Job} (found : hub.ledger.job? id = .ok (some job))
      (closed : job.state.acceptsDispatch = false) :
      Dispatching hub id task now hub (.ok (.held job.state))
  | assigned {job : Job} (found : hub.ledger.job? id = .ok (some job))
      (accepts : job.state.acceptsDispatch = true)
      (present : hub.accountant.hasTask id task.id = true) :
      Dispatching hub id task now hub (.ok .alreadyAssigned)
  | noNodes : Dispatching hub id task now hub (.error .noNodes)
  /-- The job is retired; what was written to the backlog stays there. -/
  | retired (gone : hub.accountant.retired.contains id = true) :
      Dispatching hub id task now
        { hub with backlog := (hub.backlog.enqueue task).2, turn := hub.turn + 1 }
        (.error (.accounting (.unknownJob id)))
  | sent {job : Job} {ledger : Ledger} {accountant : Accountant} {nodes : List Node} {node : String}
      (found : hub.ledger.job? id = .ok (some job)) (accepts : job.state.acceptsDispatch = true)
      (missing : hub.accountant.hasTask id task.id = false)
      (active : hub.accountant.retired.contains id = false)
      (restated : Restated hub.ledger ledger id job (job.begun now))
      (rewritten : Rewritten hub.accountant accountant id
        (hub.accountant.entered id task.id task node))
      (delivered : Delivered hub.nodes nodes task node) :
      Dispatching hub id task now
        { hub with
          ledger := ledger
          backlog := (hub.backlog.enqueue task).2
          accountant := accountant
          nodes := nodes
          turn := hub.turn + 1
          metrics := hub.metrics.taskDispatched }
        (.ok (.sent hub.backlog.next node))
  /-- The node does not take the task, and the account forgets it. -/
  | undelivered {job : Job} {ledger : Ledger} {backlog : Backlog} {accountant : Accountant}
      {account : JobAccount} {error : DispatchError}
      (found : hub.ledger.job? id = .ok (some job)) (accepts : job.state.acceptsDispatch = true)
      (missing : hub.accountant.hasTask id task.id = false)
      (active : hub.accountant.retired.contains id = false)
      (restated : Restated hub.ledger ledger id job (job.begun now))
      (rewritten : Rewritten hub.accountant accountant id account)
      (same : ∀ other, account.tasks.get? other = hub.accountant.task? id other) :
      Dispatching hub id task now
        { hub with
          ledger := ledger
          backlog := backlog
          accountant := accountant
          turn := hub.turn + 1 }
        (.error error)

/-- The tasks of an account with a further task. -/
theorem entered_get? (accountant : Accountant) (job id : String) (task : Task)
    (node other : String) :
    (accountant.entered job id task node).tasks.get? other =
      if other = id then some ⟨task, node, .pending⟩ else accountant.task? job other := by
  rw [entered, SortedMap.get?_insert, task?_eq]
  cases accountant.account? job <;> rfl

/-- A task that was entered and withdrawn leaves the accounts as they were. -/
theorem entered_withdrawn {accountant : Accountant} {node : String}
    (missing : accountant.hasTask id task.id = false) (other : String) :
    ((accountant.entered id task.id task node).tasks.erase task.id).get? other =
      accountant.task? id other := by
  rw [SortedMap.get?_erase, entered_get?]
  split
  · next same =>
    rw [same]
    exact (hasTask_eq_false_iff.1 missing).symm
  · rfl

/-- The end of a dispatch whose task is accounted. -/
theorem dispatching_deliver {number : UInt64} {index : Nat} {node : Node} {ledger : Ledger}
    {accountant : Accountant} (picked : hub.nodes[index]? = some node)
    (found : hub.ledger.job? id = .ok (some job))
    (accepts : job.state.acceptsDispatch = true)
    (missing : hub.accountant.hasTask id task.id = false)
    (active : hub.accountant.retired.contains id = false)
    (restated : Restated hub.ledger ledger id job (job.begun now))
    (rewritten : Rewritten hub.accountant accountant id
      (hub.accountant.entered id task.id task node.id))
    (issued : number = hub.backlog.next) :
    let placed : Hub := { hub with
      ledger := ledger
      backlog := (hub.backlog.enqueue task).2
      accountant := accountant
      turn := hub.turn + 1 }
    Dispatching hub id task now (placed.deliver number id task index node now).1
      (placed.deliver number id task index node now).2 := by
  intro placed
  rw [deliver]
  split
  · next inbox taken =>
    rw [issued]
    exact .sent found accepts missing active restated rewritten
      ⟨index, node, inbox, picked, rfl, taken, rfl⟩
  · have present :
        (hub.accountant.entered id task.id task node.id).tasks.contains task.id = true := by
      rw [SortedMap.contains, entered_get?, if_pos rfl]
      rfl
    have withdrawn := rewritten_withdraw rewritten.sound rewritten.is present
    have back := rewritten.trans withdrawn
    dsimp only
    split <;> exact .undelivered found accepts missing active restated back
      (entered_withdrawn missing)

/-- A dispatch comes to one of the listed ends. -/
theorem dispatching (sound : hub.accountant.Sound) (filed : hub.ledger.Filed) (id : String)
    (task : Task) (now : Instant) :
    Dispatching hub id task now (hub.dispatch id task now).1 (hub.dispatch id task now).2 := by
  rw [dispatch]
  split
  · next absent => exact .unknown absent
  · next job found =>
    have found := findJob_eq_ok_iff.1 found
    by_cases accepts : job.state.acceptsDispatch = true
    · simp only [accepts, Bool.not_true, Bool.false_eq_true, if_false]
      by_cases present : hub.accountant.hasTask id task.id = true
      · rw [if_pos present]
        exact .assigned found accepts present
      · rw [if_neg present, place]
        have missing : hub.accountant.hasTask id task.id = false := by simpa using present
        split
        · exact .noNodes
        · split
          · exact .noNodes
          · next node picked =>
            dsimp only [Backlog.enqueue]
            by_cases gone : hub.accountant.retired.contains id = true
            · rw [assign_of_retired gone]
              exact .retired gone
            · have active : hub.accountant.retired.contains id = false := by simpa using gone
              obtain ⟨accountant, assigned, rewritten⟩ :=
                assign_of_new sound active missing task node.id
              obtain ⟨ledger, begins, restated⟩ :=
                begin_of_stored
                  { hub with
                    backlog := (hub.backlog.enqueue task).2
                    turn := hub.turn + 1
                    accountant := accountant }
                  filed found accepts now
              rw [assigned]
              dsimp only [Backlog.enqueue] at begins ⊢
              rw [begins]
              exact dispatching_deliver picked found accepts missing active restated rewritten rfl
    · rw [if_pos (by simpa using accepts)]
      exact .held found (by simpa using accepts)

/-- A dispatch delivers its task, or nothing. -/
theorem delivered_dispatch (orderly : hub.Orderly) (id : String) (task : Task) (now : Instant) :
    (hub.dispatch id task now).1.nodes = hub.nodes ∨
      ∃ node, Delivered hub.nodes (hub.dispatch id task now).1.nodes task node := by
  have ends := dispatching orderly.sound orderly.filed id task now
  generalize (hub.dispatch id task now).1 = after at ends ⊢
  generalize (hub.dispatch id task now).2 = answer at ends
  cases ends with
  | sent found accepts missing active restated rewritten delivered => exact .inr ⟨_, delivered⟩
  | unknown | held | assigned | noNodes | retired | undelivered => exact .inl rfl

end Hub

end MediaHarvest
