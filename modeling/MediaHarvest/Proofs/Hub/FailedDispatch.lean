import MediaHarvest.Proofs.Accounting.Loads
import MediaHarvest.Proofs.Backlog.Numbering
import MediaHarvest.Proofs.Hub.Journal
import MediaHarvest.Proofs.Hub.Undisturbed

/-!
# What a failed dispatch leaves behind

A dispatch writes its task to the backlog, accounts it and begins its job before it sends the task.
When the inbox of the node is closed, the account forgets the task and the backlog buries it, so the
tasks, the accounts and the loads are what they were.  When the account of the job is closed, the
task stays in the backlog, although nobody ever hands it out.
-/

namespace MediaHarvest

namespace Accountant

variable {accountant : Accountant} {job id : String}

/-- The account of a job takes no tasks: the job is retired, or its account is closed. -/
def Refuses (accountant : Accountant) (job : String) : Prop :=
  accountant.retired.contains job = true ∨
    ∃ account, accountant.jobs.get? job = some account ∧ account.removed = true

/-- The same tasks are accounted with the same records, and every node has the same load. -/
structure Alike (accountant after : Accountant) : Prop where
  tasks : ∀ job id, after.task? job id = accountant.task? job id
  loads : ∀ node, after.load node = accountant.load node

theorem Alike.refl (accountant : Accountant) : accountant.Alike accountant :=
  ⟨fun _ _ => rfl, fun _ => rfl⟩

theorem assign_of_refuses (refuses : accountant.Refuses job) (task : Task) (node : String) :
    accountant.assign job id task node = .error (.unknownJob job) := by
  rw [assign]
  rcases refuses with gone | ⟨account, kept, removed⟩
  · rw [if_pos gone]
  · split
    · rfl
    · rw [kept, Option.getD_some, if_pos removed]

/-- The account that a job is given when its first task is entered. -/
theorem getD_of_accepts (accepts : ¬ accountant.Refuses job) :
    ((accountant.jobs.get? job).getD .empty).removed = false ∧
      ∀ id, accountant.task? job id = ((accountant.jobs.get? job).getD .empty).tasks.get? id := by
  cases kept : accountant.jobs.get? job with
  | none =>
      refine ⟨rfl, fun id => ?_⟩
      rw [task?_eq, account?, kept]
      rfl
  | some account =>
      have isOpen : account.removed = false :=
        Bool.eq_false_iff.2 fun removed => accepts (.inr ⟨account, kept, removed⟩)
      refine ⟨isOpen, fun id => ?_⟩
      rw [task?_eq, account?, kept]
      simp [isOpen]

/-- A task that was entered is withdrawn without a trace. -/
theorem alike_withdraw (accepts : ¬ accountant.Refuses job)
    (missing : accountant.hasTask job id = false) (task : Task) (node : String) :
    ∃ assigned, accountant.assign job id task node = .ok assigned ∧
      accountant.Alike (assigned.withdraw job id) := by
  obtain ⟨isOpen, tasks⟩ := getD_of_accepts accepts
  rw [assign, if_neg fun gone => accepts (.inl gone)]
  generalize (accountant.jobs.get? job).getD .empty = account at isOpen tasks ⊢
  have absent : account.tasks.contains id = false := by
    rw [SortedMap.contains, ← tasks]
    exact missing
  simp only [isOpen, absent, Bool.false_eq_true, if_false]
  refine ⟨_, rfl, ?_⟩
  let entered : JobAccount := ⟨account.tasks.insert id ⟨task, node, .pending⟩, false⟩
  let assigned : Accountant :=
    { accountant.setAccount job entered with
      loads := accountant.loads.insert node (accountant.load node + 1) }
  have kept : assigned.account? job = some entered := by
    rw [account?_of_insert rfl rfl, if_pos rfl]
  have found : entered.tasks.get? id = some ⟨task, node, .pending⟩ := by
    rw [SortedMap.get?_insert, if_pos rfl]
  have withdrawn : assigned.withdraw job id =
      (assigned.setAccount job ⟨entered.tasks.erase id, false⟩).release node 1 := by
    rw [withdraw, kept]
    dsimp only
    rw [found]
    rfl
  show accountant.Alike (assigned.withdraw job id)
  rw [withdrawn]
  constructor
  · intro other task
    have back : entered.tasks.erase id = account.tasks := by
      rw [SortedMap.erase_insert, SortedMap.erase_of_new absent]
    rw [task?_eq, account?_of_insert (release_jobs ..) rfl, back]
    split
    · next same =>
      rw [same, tasks]
      rfl
    · next differ => rw [account?_of_insert rfl rfl, if_neg differ, task?_eq]
  · intro other
    rw [load_release]
    show ((accountant.loads.insert node (accountant.load node + 1)).get? other).getD 0 - _ = _
    rw [SortedMap.get?_insert]
    by_cases same : node = other
    · rw [if_pos same.symm, if_pos same, same]
      rfl
    · rw [if_neg (Ne.symm same), if_neg same]
      rfl

end Accountant

namespace Hub

variable {hub : Hub} {id : String} {job : Job} {task : Task} {now : Instant}
  {error : DispatchError}

/-! ## The ends of a failed dispatch -/

/-- A job that was found can begin. -/
theorem begin_of_found (found : hub.ledger.job? id = .ok (some job)) (now : Instant) :
    ∃ ledger, hub.begin job id now = ({ hub with ledger := ledger }, .ok ()) := by
  have moves : ∃ ledger other, hub.moveJob id [.ready, .resume] .running now =
      ({ hub with ledger := ledger }, .ok other) := by
    rw [moveJob, Ledger.moveJob, Ledger.job_eq_ok_iff.2 found, ok_bind]
    split
    · next done =>
      split at done <;> cases done <;> exact ⟨_, _, rfl⟩
    · next failed => split at failed <;> cases failed
    · next failed => split at failed <;> cases failed
  obtain ⟨ledger, other, moves⟩ := moves
  rw [begin, moves]
  split
  · exact ⟨ledger, rfl⟩
  · exact ⟨ledger, rfl⟩
  · exact ⟨hub.ledger, rfl⟩

/-- What a dispatch that fails leaves behind. -/
inductive Failing (hub : Hub) (id : String) (task : Task) (now : Instant) :
    Hub → DispatchError → Prop where
  /-- Nothing was written. -/
  | refused {error : DispatchError} : Failing hub id task now hub error
  /-- The account is closed; what was written to the backlog stays there. -/
  | unaccounted (refuses : hub.accountant.Refuses id) :
      Failing hub id task now
        { hub with backlog := (hub.backlog.enqueue task).2, turn := hub.turn + 1 }
        (.accounting (.unknownJob id))
  /-- The node does not take the task; the account forgets it and the backlog buries it. -/
  | undelivered {ledger : Ledger} {accountant : Accountant} {backlog : Backlog} {node : String}
      (accepts : ¬ hub.accountant.Refuses id) (alike : hub.accountant.Alike accountant)
      (buried : (hub.backlog.enqueue task).2.bury hub.backlog.next
        s!"node {node} channel closed" now = .ok backlog) :
      Failing hub id task now
        { hub with
          ledger := ledger
          backlog := backlog
          accountant := accountant
          turn := hub.turn + 1 }
        (.nodeUnavailable node)

/-- A task that was just written down can be buried. -/
theorem bury_enqueue (backlog : Backlog) (fits : (Wire.encodeTask task).length < 2 ^ 64)
    (reason : String) (now : Instant) :
    (backlog.enqueue task).2.bury backlog.next reason now = .ok { (backlog.enqueue task).2 with
      deadLetters := backlog.deadLetters.insert (Partition.wordKey backlog.next)
        (Wire.deadLetter.write (Backlog.Burial.letter ⟨reason, now⟩ task))
      tasks := backlog.tasks.erase (Partition.wordKey backlog.next) } := by
  have stored : (backlog.enqueue task).2.tasks.get? (Partition.wordKey backlog.next) =
      some (Wire.encodeTask task) := by
    rw [Backlog.enqueue, SortedMap.get?_insert, if_pos rfl]
  rw [Backlog.bury, stored]
  dsimp only
  rw [Wire.read_encodeTask fits]
  show Except.ok _ = _
  rw [Backlog.enqueue]
  dsimp only
  rw [SortedMap.erase_insert]
  rfl

/-- The end of a dispatch whose task is accounted. -/
theorem failing_deliver (fits : (Wire.encodeTask task).length < 2 ^ 64)
    (accepts : ¬ hub.accountant.Refuses id) {ledger : Ledger} {assigned : Accountant} {index : Nat}
    {node : Node} (alike : hub.accountant.Alike (assigned.withdraw id task.id)) :
    let placed : Hub := { hub with
      ledger := ledger
      backlog := (hub.backlog.enqueue task).2
      accountant := assigned
      turn := hub.turn + 1 }
    (placed.deliver hub.backlog.next id task index node now).2 = .error error →
      Failing hub id task now (placed.deliver hub.backlog.next id task index node now).1 error := by
  intro placed
  have buried := bury_enqueue hub.backlog fits s!"node {node.id} channel closed" now
  rw [deliver]
  split
  · rintro ⟨⟩
  · dsimp only [placed]
    rw [buried]
    rintro ⟨⟩
    exact .undelivered accepts alike buried

/-- A dispatch that fails comes to one of the listed ends. -/
theorem failing_dispatch (fits : (Wire.encodeTask task).length < 2 ^ 64)
    (failed : (hub.dispatch id task now).2 = .error error) :
    Failing hub id task now (hub.dispatch id task now).1 error := by
  revert failed
  rw [dispatch]
  split
  · exact fun _ => .refused
  · next job found =>
    have found := findJob_eq_ok_iff.1 found
    split
    · rintro ⟨⟩
    · split
      · rintro ⟨⟩
      · next missing =>
        have missing : hub.accountant.hasTask id task.id = false := by simpa using missing
        rw [place]
        split
        · exact fun _ => .refused
        · split
          · exact fun _ => .refused
          · next node picked =>
            dsimp only
            by_cases refuses : hub.accountant.Refuses id
            · rw [Accountant.assign_of_refuses refuses]
              rintro ⟨⟩
              exact .unaccounted refuses
            · obtain ⟨assigned, done, alike⟩ :=
                Accountant.alike_withdraw refuses missing task node.id
              let placed : Hub := { hub with
                backlog := (hub.backlog.enqueue task).2
                turn := hub.turn + 1
                accountant := assigned }
              have found : placed.ledger.job? id = .ok (some job) := found
              obtain ⟨ledger, begins⟩ := begin_of_found found now
              rw [done]
              dsimp only [placed, Backlog.enqueue] at begins ⊢
              rw [begins]
              exact failing_deliver fits refuses alike

/-- A task that is not accounted, of a job that was begun or can begin, is placed. -/
theorem dispatch_eq_place (found : hub.ledger.job? id = .ok (some job))
    (started : job.state.acceptsDispatch = true)
    (missing : hub.accountant.hasTask id task.id = false) (now : Instant) :
    hub.dispatch id task now = hub.place job id task now := by
  rw [dispatch, findJob_eq_ok_iff.2 found]
  simp only [started, missing, Bool.not_true, Bool.false_eq_true, if_false]

/-- A task that is picked for a node which is gone is not delivered. -/
theorem nodeUnavailable_of_closed {index : Nat} {node : Node}
    (found : hub.ledger.job? id = .ok (some job)) (started : job.state.acceptsDispatch = true)
    (missing : hub.accountant.hasTask id task.id = false) (accepts : ¬ hub.accountant.Refuses id)
    (picked : hub.pickNode = some index) (there : hub.nodes[index]? = some node)
    (gone : node.inbox.isOpen = false) (fits : (Wire.encodeTask task).length < 2 ^ 64) :
    (hub.dispatch id task now).2 = .error (.nodeUnavailable node.id) := by
  obtain ⟨assigned, done, _⟩ := Accountant.alike_withdraw accepts missing task node.id
  let placed : Hub := { hub with
    backlog := (hub.backlog.enqueue task).2
    turn := hub.turn + 1
    accountant := assigned }
  have stored : placed.ledger.job? id = .ok (some job) := found
  obtain ⟨ledger, begins⟩ := begin_of_found stored now
  have buried := bury_enqueue hub.backlog fits s!"node {node.id} channel closed" now
  rw [dispatch_eq_place found started missing, place, picked]
  dsimp only
  rw [there]
  dsimp only [placed, Backlog.enqueue] at begins buried ⊢
  rw [done]
  dsimp only
  rw [begins]
  dsimp only
  rw [deliver, Channel.send?, if_neg (by rw [gone]; decide)]
  dsimp only
  rw [buried]

/-- A task of a job whose account is closed is written down, and then refused. -/
theorem dispatch_of_refuses {index : Nat} {node : Node}
    (found : hub.ledger.job? id = .ok (some job)) (started : job.state.acceptsDispatch = true)
    (missing : hub.accountant.hasTask id task.id = false) (refuses : hub.accountant.Refuses id)
    (picked : hub.pickNode = some index) (there : hub.nodes[index]? = some node) :
    hub.dispatch id task now =
      ({ hub with backlog := (hub.backlog.enqueue task).2, turn := hub.turn + 1 },
        .error (.accounting (.unknownJob id))) := by
  rw [dispatch_eq_place found started missing, place, picked]
  dsimp only
  rw [there]
  dsimp only
  rw [Accountant.assign_of_refuses refuses]

/-! ## The use of the backlog -/

theorem used_deliver (hub : Hub) (number : UInt64) (id : String) (task : Task) (index : Nat)
    (node : Node) (now : Instant) :
    Backlog.Used hub.backlog (hub.deliver number id task index node now).1.backlog := by
  rw [deliver]
  split
  · exact .refl _
  · dsimp only
    split
    · exact .refl _
    · next backlog buried =>
      have used := Backlog.used_perform hub.backlog
        (.bury number s!"node {node.id} channel closed" now)
      rwa [Backlog.Call.perform, buried] at used

theorem used_dispatch (hub : Hub) (id : String) (task : Task) (now : Instant) :
    Backlog.Used hub.backlog (hub.dispatch id task now).1.backlog := by
  rw [dispatch]
  split
  · exact .refl _
  · next job _ =>
    split
    · exact .refl _
    · split
      · exact .refl _
      · rw [place]
        split
        · exact .refl _
        · split
          · exact .refl _
          · have written := Backlog.used_perform hub.backlog (.enqueue task)
            dsimp only
            split
            · exact written
            · next accountant _ =>
              let placed : Hub := { hub with
                backlog := (hub.backlog.enqueue task).2
                accountant := accountant
                turn := hub.turn + 1 }
              have begins : Backlog.Used hub.backlog (placed.begin job id now).1.backlog :=
                (undisturbed_begin placed job id now).backlog ▸ written
              split
              · next same =>
                rw [same] at begins
                exact begins
              · next same =>
                rw [same] at begins
                exact begins.trans (used_deliver ..)

theorem used_dispatchTasks (job : Job) (id : String) (now : Instant) (positions : List Nat)
    (sent : Nat) (hub : Hub) :
    Backlog.Used hub.backlog (dispatchTasks job id now positions sent hub).1.backlog := by
  induction positions generalizing sent hub with
  | nil => exact .refl _
  | cons index rest ih =>
      rw [dispatchTasks]
      split
      · exact .refl _
      · next task _ =>
        have used := used_dispatch hub id task now
        generalize hub.dispatch id task now = result at used ⊢
        obtain ⟨after, answer⟩ := result
        cases answer with
        | error error => exact used
        | ok dispatched =>
            cases dispatched with
            | sent => exact used.trans (ih _ after)
            | alreadyAssigned => exact used.trans (ih _ after)
            | held => exact used

theorem used_dispatchJob (hub : Hub) (id : String) (now : Instant) :
    Backlog.Used hub.backlog (hub.dispatchJob id now).1.backlog := by
  rw [dispatchJob]
  split
  · exact .refl _
  · exact used_dispatchTasks ..

theorem used_startJob (hub : Hub) (id : String) (now : Instant) :
    Backlog.Used hub.backlog (hub.startJob id now).1.backlog := by
  have moves := undisturbed_moveJob hub id [.ready, .running, .pause] .resume now
  rw [startJob]
  generalize hub.moveJob id [.ready, .running, .pause] .resume now = moved at moves ⊢
  obtain ⟨after, answer⟩ := moved
  have same : Backlog.Used hub.backlog after.backlog := moves.backlog ▸ .refl _
  cases answer with
  | error error => exact same
  | ok job =>
      dsimp only
      split
      · exact same
      · exact same.trans (used_dispatchJob ..)

/-- A hub uses its backlog by calls of the backlog only. -/
theorem used_call (call : Call) (now : Instant) (hub : Hub) :
    Backlog.Used hub.backlog (call.perform now hub).1.backlog := by
  have steady {after : Hub} (undisturbed : Undisturbed hub after) :
      Backlog.Used hub.backlog after.backlog := undisturbed.backlog ▸ .refl _
  cases call with
  | dispatch job task => exact used_dispatch hub job task now
  | dispatchJob job => exact used_dispatchJob hub job now
  | startJob job => exact used_startJob hub job now
  | stopJob job => exact steady (undisturbed_stopJob hub job now)
  | report completion => exact steady (undisturbed_onCompletion hub completion now)
  | reconcile job => exact steady (undisturbed_reconcile hub job now)
  | record completion => exact steady (undisturbed_record hub completion now)
  | removeJob job => exact .refl _
  | takeTask node =>
      show Backlog.Used _ (hub.takeTask node).2.backlog
      rw [takeTask]
      split <;> exact .refl _
  | closeNode node =>
      show Backlog.Used _ (hub.closeNode node).backlog
      rw [closeNode]
      split <;> exact .refl _

/-! ## What is left behind -/

/-- The states that a hub can come to whose backlog was empty at first. -/
inductive Reached : Hub → Prop where
  | start {hub : Hub} (unused : hub.backlog = .empty) : Reached hub
  | call {hub : Hub} (before : Reached hub) (call : Call) (now : Instant) :
      Reached (call.perform now hub).1
  /-- The backlog was used by someone else. -/
  | backlog {hub : Hub} (before : Reached hub) (call : Backlog.Call) :
      Reached { hub with backlog := call.perform hub.backlog }
  /-- Anything else was done, to the ledger, to the accounts or to the nodes. -/
  | apart {hub after : Hub} (before : Reached hub) (same : after.backlog = hub.backlog) :
      Reached after

theorem Reached.numbered (reached : Reached hub) : hub.backlog.Numbered := by
  induction reached with
  | start unused => exact unused ▸ Backlog.numbered_empty
  | @call hub before call now ih => exact (used_call call now hub).numbered ih
  | backlog before call ih => exact ih.perform call
  | apart before same ih => exact same ▸ ih

/-- A task was written down and buried: no other task is there, and its dead letter tells why. -/
structure Buried (backlog after : Backlog) (task : Task) (burial : Backlog.Burial) : Prop where
  tasks : after.tasks = backlog.tasks
  next : after.next = backlog.next + 1
  letter : after.deadLetters =
    backlog.deadLetters.insert (Partition.wordKey backlog.next)
      (Wire.deadLetter.write (burial.letter task))

theorem buried_of_free {backlog after : Backlog}
    (free : backlog.tasks.contains (Partition.wordKey backlog.next) = false)
    (fits : (Wire.encodeTask task).length < 2 ^ 64) {reason : String}
    (done : (backlog.enqueue task).2.bury backlog.next reason now = .ok after) :
    Buried backlog after task ⟨reason, now⟩ := by
  rw [bury_enqueue backlog fits] at done
  cases done
  exact ⟨SortedMap.erase_of_new free, rfl, rfl⟩

/-- A dispatch that fails leaves no task behind: the accounted tasks, the loads and the inboxes are
what they were, and so are the tasks of the backlog, whatever stands in the ledger and in the
accounts.  A number that was used up is that of the dead letter.  The exception is a job whose
account is closed: its task stays in the backlog under the number that was used up. -/
theorem untraced_of_failed {hub : Hub} (reached : Reached hub) (room : ¬ hub.backlog.Full)
    (id : String) (task : Task) (now : Instant) (fits : (Wire.encodeTask task).length < 2 ^ 64)
    {error : DispatchError} (failed : (hub.dispatch id task now).2 = .error error) :
    hub.accountant.Alike (hub.dispatch id task now).1.accountant ∧
      (hub.dispatch id task now).1.nodes = hub.nodes ∧
      (¬ hub.accountant.Refuses id →
        (hub.dispatch id task now).1.backlog = hub.backlog ∨
          ∃ reason, Buried hub.backlog (hub.dispatch id task now).1.backlog task ⟨reason, now⟩) ∧
      (hub.accountant.Refuses id →
        (hub.dispatch id task now).1.backlog = hub.backlog ∨
          error = .accounting (.unknownJob id) ∧
            (hub.dispatch id task now).1.backlog = (hub.backlog.enqueue task).2) := by
  have ends := failing_dispatch fits failed
  generalize (hub.dispatch id task now).1 = after at ends ⊢
  cases ends with
  | refused => exact ⟨.refl _, rfl, fun _ => .inl rfl, fun _ => .inl rfl⟩
  | unaccounted refuses =>
      exact ⟨.refl _, rfl, fun accepts => absurd refuses accepts, fun _ => .inr ⟨rfl, rfl⟩⟩
  | undelivered accepts alike buried =>
      have free := reached.numbered.free room
      exact ⟨alike, rfl, fun _ => .inr ⟨_, buried_of_free free fits buried⟩,
        fun refuses => absurd refuses accepts⟩

/-- The hub with one job whose nodes have both gone away. -/
def desertedHub : Hub := (pairHub.closeNode 0).closeNode 1

theorem deserted_untraced :
    Reached desertedHub ∧ ¬ desertedHub.backlog.Full ∧
      (Wire.encodeTask Wire.linkTask).length < 2 ^ 64 ∧
      ¬ desertedHub.accountant.Refuses "7" ∧
      (desertedHub.dispatch "7" Wire.linkTask .epoch).2 = .error (.nodeUnavailable "node-0") ∧
      (desertedHub.dispatch "7" Wire.linkTask .epoch).1.backlog.tasks = ∅ := by
  have reached : Reached desertedHub := .start rfl
  have room : ¬ desertedHub.backlog.Full := by
    intro full
    rcases full 0 with stored | stored
    · cases stored
    · cases stored
  have fits : (Wire.encodeTask Wire.linkTask).length < 2 ^ 64 := by decide +kernel
  have accepts : ¬ desertedHub.accountant.Refuses "7" := by
    rintro (gone | ⟨account, kept, _⟩)
    · cases gone
    · cases kept
  have failed : (desertedHub.dispatch "7" Wire.linkTask .epoch).2 =
      .error (.nodeUnavailable "node-0") := by
    have ledger : desertedHub.ledger = pairHub.ledger := rfl
    have found : desertedHub.ledger.job? "7" = .ok (some twoLinks) := ledger ▸ pairHub_stored
    have missing : desertedHub.accountant.hasTask "7" Wire.linkTask.id = false := by decide
    have picked : desertedHub.pickNode = some 0 := by decide
    have there : desertedHub.nodes[0]? = some ⟨"node-0", Channel.new.close⟩ := by decide
    have gone : (Channel.new.close : Channel Task).isOpen = false := rfl
    exact nodeUnavailable_of_closed found (by decide) missing accepts picked there gone fits
  obtain ⟨_, _, open_, _⟩ := untraced_of_failed reached room "7" Wire.linkTask .epoch fits failed
  refine ⟨reached, room, fits, accepts, failed, ?_⟩
  rcases open_ accepts with same | ⟨reason, buried⟩
  · rw [same]
    rfl
  · rw [buried.tasks]
    rfl

/-- The hub with one job, which was removed from the accounts while it is still stored as ready. -/
def removedHub : Hub := { pairHub with accountant := pairHub.accountant.removeJob "7" }

/-- The dispatch of a task of the removed job fails, and the task stays in the backlog. -/
theorem traced_of_removed :
    Reached removedHub ∧ ¬ removedHub.backlog.Full ∧
      (Wire.encodeTask Wire.linkTask).length < 2 ^ 64 ∧
      removedHub.ledger.job? "7" = .ok (some twoLinks) ∧ twoLinks.state = .ready ∧
      (removedHub.dispatch "7" Wire.linkTask .epoch).2 =
        .error (.accounting (.unknownJob "7")) ∧
      removedHub.backlog.tasks = ∅ ∧
      (removedHub.dispatch "7" Wire.linkTask .epoch).1.backlog.tasks.contains
        (Partition.wordKey 0) = true ∧
      (removedHub.dispatch "7" Wire.linkTask .epoch).1.backlog.deadLetters = ∅ := by
  have room : ¬ removedHub.backlog.Full := by
    intro full
    rcases full 0 with stored | stored
    · cases stored
    · cases stored
  have fits : (Wire.encodeTask Wire.linkTask).length < 2 ^ 64 := by decide +kernel
  have found : removedHub.ledger.job? "7" = .ok (some twoLinks) := pairHub_stored
  have missing : removedHub.accountant.hasTask "7" Wire.linkTask.id = false := by decide
  have refuses : removedHub.accountant.Refuses "7" := .inl (by decide)
  have picked : removedHub.pickNode = some 0 := by decide
  have there : removedHub.nodes[0]? = some ⟨"node-0", .new⟩ := by decide
  have left : removedHub.dispatch "7" Wire.linkTask .epoch = _ :=
    dispatch_of_refuses found (by decide) missing refuses picked there
  refine ⟨.start rfl, room, fits, found, rfl, ?_, rfl, ?_, ?_⟩
  · rw [left]
  · have first : removedHub.backlog.next = 0 := rfl
    rw [left, SortedMap.contains]
    dsimp only
    rw [Backlog.enqueue, SortedMap.get?_insert, first, if_pos rfl]
    rfl
  · rw [left]
    rfl

end Hub

end MediaHarvest
