import MediaHarvest.Hub.Reception
import MediaHarvest.Proofs.Hub.Completion
import MediaHarvest.Proofs.Hub.Handing
import MediaHarvest.Proofs.Ledger.Records
import Mathlib.Data.List.Nodup

/-!
# Runs of a hub and their journals

A run is any sequence of calls.  Its journal notes, in order, which tasks were handed to nodes and
how reports were answered.  `Performed` says of each call what it did, so that an invariant of all
runs has to be shown for a handful of cases only.
-/

namespace MediaHarvest

open Accountant

/-- A call of a part of a hub. -/
inductive Call where
  /-- A task is to be handed out. -/
  | dispatch (job : String) (task : Task)
  /-- A job is to be handed out. -/
  | dispatchJob (job : String)
  | startJob (job : String)
  | stopJob (job : String)
  /-- A report is to be taken into account. -/
  | report (completion : Completion)
  /-- A job is to be looked at again. -/
  | reconcile (job : String)
  | record (completion : Completion)
  /-- A job is to be removed from the accounts. -/
  | removeJob (job : String)
  | takeTask (node : Nat)
  | closeNode (node : Nat)

/-- What the journal of a run notes. -/
inductive Entry where
  /-- A task was handed to a node. -/
  | sent (job task : String)
  | reported (job task : String) (answer : Except CompletionError CompletionStatus)
  /-- A second look was answered. -/
  | reconciled (job : String) (answer : Except CompletionError CompletionStatus)

/-- The job that a call may touch. -/
def Call.job? : Call → Option String
  | dispatch job _ | dispatchJob job | startJob job | stopJob job => some job
  | reconcile job | removeJob job => some job
  | report completion => some completion.job
  | record _ | takeTask _ | closeNode _ => none

/-- Makes a call; gives the hub afterwards and what the journal notes. -/
def Call.perform (call : Call) (now : Instant) (hub : Hub) : Hub × List Entry :=
  match call with
  | dispatch job task =>
      ((hub.dispatch job task now).1, (hub.dispatchSent job task now).map (.sent job))
  | dispatchJob job =>
      ((hub.dispatchJob job now).1, (hub.dispatchJobSent job now).map (.sent job))
  | startJob job => ((hub.startJob job now).1, (hub.startJobSent job now).map (.sent job))
  | stopJob job => ((hub.stopJob job now).1, [])
  | report completion =>
      let (after, answer) := hub.onCompletion completion now
      (after, [.reported completion.job completion.task answer])
  | reconcile job =>
      let (after, answer) := hub.reconcile job now
      (after, [.reconciled job answer])
  | record completion => ((hub.record completion now).1, [])
  | removeJob job => ({ hub with accountant := hub.accountant.removeJob job }, [])
  | takeTask node => ((hub.takeTask node).2, [])
  | closeNode node => (hub.closeNode node, [])

namespace Hub

/-- Makes calls one after another, each at its time; gives the hub afterwards and the journal. -/
def run : List (Call × Instant) → Hub → Hub × List Entry
  | [], hub => (hub, [])
  | (call, now) :: rest, hub =>
      let first := call.perform now hub
      let others := run rest first.1
      (others.1, first.2 ++ others.2)

end Hub

/-! ## What a journal tells -/

/-- The tasks that were handed to nodes, each with its job. -/
def sentTasks (journal : List Entry) : List (String × String) :=
  journal.flatMap fun
    | .sent job task => [(job, task)]
    | _ => []

/-- The jobs that were declared finished. -/
def finishedJobs (journal : List Entry) : List String :=
  journal.flatMap fun
    | .reported job _ answer => Hub.finishedNames job answer
    | .reconciled job answer => Hub.finishedNames job answer
    | .sent .. => []

@[simp]
theorem sentTasks_append (first second : List Entry) :
    sentTasks (first ++ second) = sentTasks first ++ sentTasks second :=
  List.flatMap_append

@[simp]
theorem finishedJobs_append (first second : List Entry) :
    finishedJobs (first ++ second) = finishedJobs first ++ finishedJobs second :=
  List.flatMap_append

@[simp]
theorem sentTasks_map_sent (job : String) (names : List String) :
    sentTasks (names.map (.sent job)) = names.map (Prod.mk job) := by
  induction names with
  | nil => rfl
  | cons name names ih => exact congrArg (List.cons (job, name)) ih

@[simp]
theorem finishedJobs_map_sent (job : String) (names : List String) :
    finishedJobs (names.map (.sent job)) = [] := by
  induction names with
  | nil => rfl
  | cons name names ih => exact ih

@[simp]
theorem finishedJobs_reported (job task : String)
    (answer : Except CompletionError CompletionStatus) :
    finishedJobs [.reported job task answer] = Hub.finishedNames job answer :=
  List.append_nil _

@[simp]
theorem finishedJobs_reconciled (job : String)
    (answer : Except CompletionError CompletionStatus) :
    finishedJobs [.reconciled job answer] = Hub.finishedNames job answer :=
  List.append_nil _

/-! ## What a call does -/

namespace Hub

variable {hub after : Hub} {call : Call} {now : Instant} {journal : List Entry}

/-- What a call that may touch a job does, and what the journal notes of it. -/
inductive Performed (hub after : Hub) : Option String → List Entry → Prop where
  | handed {id : String} {names : List String} (step : Handed hub after id names) :
      Performed hub after (some id) (names.map (.sent id))
  | reported {id : String} {task : String} {answer : Except CompletionError CompletionStatus}
      (step : Settled hub after id (finishedNames id answer)) :
      Performed hub after (some id) [.reported id task answer]
  /-- It answers a second look. -/
  | reconciled {id : String} {answer : Except CompletionError CompletionStatus}
      (step : Settled hub after id (finishedNames id answer)) :
      Performed hub after (some id) [.reconciled id answer]
  | removed {id : String} (step : Settled hub after id []) : Performed hub after (some id) []
  | idle (accountant : after.accountant = hub.accountant)
      (jobs : after.ledger.jobs = hub.ledger.jobs) (announced : after.announced = hub.announced)
      (finished : after.metrics.jobsFinished = hub.metrics.jobsFinished) :
      Performed hub after none []

theorem idle_record (hub : Hub) (completion : Completion) (now : Instant) :
    Performed hub (hub.record completion now).1 none [] := by
  have jobs := hub.ledger.jobs_record completion now
  rw [record]
  generalize hub.ledger.record completion now = result at jobs ⊢
  obtain ⟨ledger, answer⟩ := result
  cases answer <;> exact .idle rfl jobs rfl rfl

theorem idle_takeTask (hub : Hub) (node : Nat) :
    Performed hub (hub.takeTask node).2 none [] := by
  rw [takeTask]
  split <;> exact .idle rfl rfl rfl rfl

theorem idle_closeNode (hub : Hub) (node : Nat) :
    Performed hub (hub.closeNode node) none [] := by
  rw [closeNode]
  split <;> exact .idle rfl rfl rfl rfl

/-- Every call does one of the listed things. -/
theorem performed (orderly : hub.Orderly) (call : Call) (now : Instant) :
    Performed hub (call.perform now hub).1 call.job? (call.perform now hub).2 := by
  cases call with
  | dispatch job task => exact .handed (handed_dispatch orderly job task now)
  | dispatchJob job => exact .handed (handed_dispatchJob orderly job now)
  | startJob job => exact .handed (handed_startJob orderly job now)
  | stopJob job => exact .handed (handed_stopJob orderly job now)
  | report completion => exact .reported (settled_onCompletion orderly completion now)
  | reconcile job => exact .reconciled (settled_reconcile orderly job now)
  | record completion => exact idle_record hub completion now
  | removeJob job => exact .removed (settled_removeJob orderly job)
  | takeTask node => exact idle_takeTask hub node
  | closeNode node => exact idle_closeNode hub node

/-- Every call leaves the hub in order. -/
theorem Performed.orderly {job : Option String} {noted : List Entry}
    (step : Performed hub after job noted) (orderly : hub.Orderly) : after.Orderly := by
  cases step with
  | handed step => exact step.touched.orderly
  | reported step => exact step.touched.orderly
  | reconciled step => exact step.touched.orderly
  | removed step => exact step.touched.orderly
  | @idle accountant jobs =>
      have touched : Touched hub after "" := touched_of_same orderly accountant jobs
      exact touched.orderly

/-- A call that may touch another job only leaves this one alone. -/
theorem Performed.apart {subject : Option String} {noted : List Entry}
    (step : Performed hub after subject noted) (id : String) (differ : subject ≠ some id) :
    after.ledger.job? id = hub.ledger.job? id ∧
      ∀ task, after.accountant.task? id task = hub.accountant.task? id task := by
  have apart {other : String} (touched : Touched hub after other) (differ : some other ≠ some id) :
      after.ledger.job? id = hub.ledger.job? id ∧
        ∀ task, after.accountant.task? id task = hub.accountant.task? id task := by
    have differ : id ≠ other := fun same => differ (congrArg some same.symm)
    exact ⟨touched.jobs id differ, touched.task? differ⟩
  cases step with
  | handed step => exact apart step.touched differ
  | reported step => exact apart step.touched differ
  | reconciled step => exact apart step.touched differ
  | removed step => exact apart step.touched differ
  | idle accountant jobs =>
      rw [Ledger.job?, Ledger.job?, jobs, accountant]
      exact ⟨rfl, fun _ => rfl⟩

/-- A call that may touch another job only leaves the account of this one alone. -/
theorem Performed.account? {subject : Option String} {noted : List Entry}
    (step : Performed hub after subject noted) (id : String) (differ : subject ≠ some id) :
    after.accountant.account? id = hub.accountant.account? id := by
  have apart {other : String} (touched : Touched hub after other) (differ : some other ≠ some id) :
      after.accountant.account? id = hub.accountant.account? id :=
    touched.accounts id fun same => differ (congrArg some same.symm)
  cases step with
  | handed step => exact apart step.touched differ
  | reported step => exact apart step.touched differ
  | reconciled step => exact apart step.touched differ
  | removed step => exact apart step.touched differ
  | idle accountant => rw [accountant]

theorem mem_finishedNames {id name : String} {answer : Except CompletionError CompletionStatus}
    (mem : name ∈ finishedNames id answer) : name = id := by
  cases answer with
  | error error => cases mem
  | ok status =>
      cases status with
      | finished => exact List.mem_singleton.1 mem
      | pending => cases mem
      | ignored => cases mem

/-- A call that may touch another job only neither retires this one nor says anything of it. -/
theorem Performed.aside {subject : Option String} {noted : List Entry}
    (step : Performed hub after subject noted) (id : String) (differ : subject ≠ some id) :
    after.accountant.retired.contains id = hub.accountant.retired.contains id ∧
      (finishedJobs noted).count id = 0 ∧ ∀ task answer, .reported id task answer ∉ noted := by
  have apart {other : String} (differ : some other ≠ some id) : id ≠ other :=
    fun same => differ (congrArg some same.symm)
  have unnamed {other : String} (differ : some other ≠ some id)
      (answer : Except CompletionError CompletionStatus) :
      (finishedNames other answer).count id = 0 :=
    List.count_eq_zero.2 fun mem => apart differ (mem_finishedNames mem)
  cases step with
  | handed step =>
      refine ⟨step.touched.retired id (apart differ), ?_, by simp⟩
      rw [finishedJobs_map_sent, List.count_nil]
  | @reported other task answer step =>
      refine ⟨step.touched.retired id (apart differ), ?_, by simp [apart differ]⟩
      rw [finishedJobs_reported]
      exact unnamed differ answer
  | @reconciled other answer step =>
      refine ⟨step.touched.retired id (apart differ), ?_, by simp⟩
      rw [finishedJobs_reconciled]
      exact unnamed differ answer
  | removed step => exact ⟨step.touched.retired id (apart differ), rfl, by simp⟩
  | idle accountant => exact ⟨by rw [accountant], rfl, by simp⟩

/-! ## What holds after every run -/

/-- Calls made after others are made in the hub that those leave behind. -/
theorem run_append (first second : List (Call × Instant)) (hub : Hub) :
    (run (first ++ second) hub).1 = (run second (run first hub).1).1 := by
  induction first generalizing hub with
  | nil => rfl
  | cons step rest ih =>
      rcases step with ⟨call, now⟩
      exact ih _

theorem orderly_run (calls : List (Call × Instant)) (hub : Hub) (orderly : hub.Orderly) :
    (run calls hub).1.Orderly := by
  induction calls generalizing hub with
  | nil => exact orderly
  | cons step rest ih =>
      rcases step with ⟨call, now⟩
      exact ih _ ((performed orderly call now).orderly orderly)

/-- The accounts agree with the journal. -/
structure Journaled (hub : Hub) (journal : List Entry) : Prop where
  /-- The hub is in order. -/
  orderly : hub.Orderly
  once : (sentTasks journal).Nodup
  accounted : ∀ job task, hub.accountant.hasTask job task = true → (job, task) ∈ sentTasks journal
  /-- Every task that was handed out is accounted, unless its job is retired. -/
  kept : ∀ job task, (job, task) ∈ sentTasks journal →
    hub.accountant.hasTask job task = true ∨ hub.accountant.retired.contains job = true

/-- A hub without accounts agrees with the empty journal. -/
theorem journaled_nil (fresh : hub.accountant = .empty) (filed : hub.ledger.Filed) :
    Journaled hub [] where
  orderly := ⟨fresh ▸ sound_empty, filed, fresh ▸ rfl⟩
  once := List.nodup_nil
  accounted := by
    rw [fresh]
    rintro job task ⟨⟩
  kept := by simp [sentTasks]

/-- Tasks that are handed out are added to the journal. -/
theorem Journaled.handed {id : String} {names : List String} (agree : Journaled hub journal)
    (step : Handed hub after id names) : Journaled after (journal ++ names.map (.sent id)) where
  orderly := step.touched.orderly
  once := by
    rw [sentTasks_append, sentTasks_map_sent]
    refine List.nodup_append.2
      ⟨agree.once, List.Nodup.map (fun _ _ same => (Prod.mk.inj same).2) step.distinct, ?_⟩
    rintro entry early _ late rfl
    obtain ⟨task, sent, rfl⟩ := List.mem_map.1 late
    -- a task that was handed out before is accounted or of a retired job, and neither is handed out
    rcases agree.kept id task early with present | gone
    · rw [hasTask, step.fresh task sent] at present
      cases present
    · rw [step.active (List.ne_nil_of_mem sent)] at gone
      cases gone
  accounted := by
    intro job task present
    rw [sentTasks_append, sentTasks_map_sent, List.mem_append]
    by_cases same : job = id
    · subst same
      by_cases sent : task ∈ names
      · exact .inr (List.mem_map_of_mem sent)
      · rw [hasTask, step.others task sent] at present
        exact .inl (agree.accounted job task present)
    · rw [hasTask, step.touched.task? same] at present
      exact .inl (agree.accounted job task present)
  kept := by
    intro job task mem
    rw [sentTasks_append, sentTasks_map_sent, List.mem_append] at mem
    rw [step.retired]
    rcases mem with early | late
    · rcases agree.kept job task early with present | gone
      · left
        by_cases same : job = id
        · subst same
          by_cases sent : task ∈ names
          · rw [hasTask, step.fresh task sent] at present
            cases present
          · rw [hasTask, step.others task sent]
            exact present
        · rw [hasTask, step.touched.task? same]
          exact present
      · exact .inr gone
    · obtain ⟨_, sent, same⟩ := List.mem_map.1 late
      cases same
      obtain ⟨record, found, _⟩ := step.pending _ sent
      exact .inl (hasTask_eq_true_iff.2 ⟨record, found⟩)

/-- Settling a job hands out nothing. -/
theorem Journaled.settled {id : String} {finished : List String} {noted : List Entry}
    (agree : Journaled hub journal) (step : Settled hub after id finished)
    (unsent : sentTasks noted = []) : Journaled after (journal ++ noted) where
  orderly := step.touched.orderly
  once := by
    rw [sentTasks_append, unsent, List.append_nil]
    exact agree.once
  accounted := by
    intro job task present
    rw [sentTasks_append, unsent, List.append_nil]
    by_cases same : job = id
    · exact agree.accounted job task (same ▸ step.fewer task (same ▸ present))
    · rw [hasTask, step.touched.task? same] at present
      exact agree.accounted job task present
  kept := by
    intro job task mem
    rw [sentTasks_append, unsent, List.append_nil] at mem
    by_cases same : job = id
    · subst same
      rcases agree.kept job task mem with present | gone
      · exact step.lost task present
      · exact .inr (step.retired gone)
    · rw [hasTask, step.touched.task? same, step.touched.retired job same]
      exact agree.kept job task mem

theorem Journaled.performed {job : Option String} {noted : List Entry}
    (agree : Journaled hub journal) (step : Performed hub after job noted) :
    Journaled after (journal ++ noted) := by
  cases step with
  | handed step => exact agree.handed step
  | reported step => exact agree.settled step rfl
  | reconciled step => exact agree.settled step rfl
  | removed step => exact agree.settled step rfl
  | idle accountant jobs announced finished =>
      rw [List.append_nil]
      refine ⟨(Performed.idle accountant jobs announced finished).orderly agree.orderly, agree.once,
        ?_, ?_⟩
      · rw [accountant]
        exact agree.accounted
      · rw [accountant]
        exact agree.kept

/-- The accounts agree with the journal after every run. -/
theorem Journaled.run (calls : List (Call × Instant)) (hub : Hub) (journal : List Entry)
    (agree : Journaled hub journal) :
    Journaled (run calls hub).1 (journal ++ (run calls hub).2) := by
  induction calls generalizing hub journal with
  | nil =>
      rw [Hub.run, List.append_nil]
      exact agree
  | cons step rest ih =>
      obtain ⟨call, now⟩ := step
      have next := agree.performed (Hub.performed agree.orderly call now)
      rw [Hub.run, ← List.append_assoc]
      exact ih _ _ next

/-- Exactly the jobs that were declared finished are announced and counted. -/
theorem announced_performed {job : Option String} {noted : List Entry}
    (step : Performed hub after job noted) :
    after.announced = hub.announced ++ finishedJobs noted ∧
      after.metrics.jobsFinished =
        hub.metrics.jobsFinished + UInt64.ofNat (finishedJobs noted).length := by
  cases step with
  | handed step => simp [step.steady.announced, step.steady.finished]
  | reported step => simpa using ⟨step.announced, step.counted⟩
  | reconciled step => simpa using ⟨step.announced, step.counted⟩
  | removed step => exact ⟨step.announced, step.counted⟩
  | idle _ _ announced finished => simp [announced, finished, finishedJobs]

theorem announced_run (calls : List (Call × Instant)) (hub : Hub) (orderly : hub.Orderly) :
    (run calls hub).1.announced = hub.announced ++ finishedJobs (run calls hub).2 ∧
      (run calls hub).1.metrics.jobsFinished =
        hub.metrics.jobsFinished + UInt64.ofNat (finishedJobs (run calls hub).2).length := by
  induction calls generalizing hub with
  | nil => simp [run, finishedJobs]
  | cons step rest ih =>
      obtain ⟨call, now⟩ := step
      have step := performed orderly call now
      obtain ⟨announced, counted⟩ := announced_performed step
      obtain ⟨further, more⟩ := ih _ (step.orderly orderly)
      rw [run]
      dsimp only
      rw [further, more, announced, counted, finishedJobs_append, List.append_assoc,
        List.length_append, UInt64.ofNat_add, UInt64.add_assoc]
      exact ⟨rfl, rfl⟩

end Hub

/-! ## A hub with one job -/

/-- A job that checks two links. -/
def twoLinks : Job where
  id := "7"
  owner := ⟨"provider", "collection", "record", "execution"⟩
  tasks := [⟨.checkLink, "first", []⟩, ⟨.checkLink, "second", []⟩]
  state := .ready
  role := .object
  limits := .unlimited
  createdAt := .epoch
  updatedAt := .epoch

/-- A report on one of its tasks. -/
def linkChecked (index : Nat) : Completion where
  job := twoLinks.id
  task := twoLinks.taskId index
  resource := "first"
  kind := .checkLink
  verdict := .success
  subTasks := .untouched
  outcome := .start .memory
  node := "node-0"
  completedAt := .epoch

/-- A hub with two nodes that stores the job. -/
def pairHub : Hub :=
  { Hub.start 2 .unlimited .zero with ledger := Ledger.empty.putJob twoLinks }

theorem pairHub_filed : pairHub.ledger.Filed :=
  Ledger.filed_empty.putJob Limits.whole_unlimited

theorem pairHub_stored : pairHub.ledger.job? twoLinks.id = .ok (some twoLinks) :=
  (Ledger.job?_putJob Limits.whole_unlimited twoLinks.id).trans (if_pos rfl)

/-- The job is started, a node goes away, and the reports come in twice and in another order. -/
def pairCalls : List (Call × Instant) :=
  [(.startJob "7", .epoch), (.report (linkChecked 1), .epoch), (.stopJob "7", .epoch),
    (.closeNode 0, .epoch), (.report (linkChecked 1), .epoch), (.startJob "7", .epoch),
    (.report (linkChecked 0), .epoch), (.report (linkChecked 0), .epoch)]

end MediaHarvest
