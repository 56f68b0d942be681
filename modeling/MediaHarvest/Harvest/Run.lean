import MediaHarvest.Harvest.JobsFile
import MediaHarvest.Hub.Dispatch
import MediaHarvest.Hub.Reception
import MediaHarvest.Ledger.Retention
import MediaHarvest.Retrieval.TaskRun
import MediaHarvest.Settings.Basic

/-!
# Harvesting jobs

A harvest first drops what is too old, then hands out every task of its jobs, lets the nodes carry
them out and takes in their reports.  Jobs that are still open then are looked at once more, and
those that stay open are listed in the summary.  There is no summary if a size that is set is too
large, or if a task never comes to its end.
-/

namespace MediaHarvest

/-- What outlasts a harvest. -/
structure Holdings where
  ledger : Ledger
  backlog : Backlog
  files : FileTree
deriving DecidableEq

/-- What the memory of a machine has room for. -/
structure Machine where
  /-- Whether it can hold a list of so many nodes. -/
  listsNodes : UInt64 → Bool
  /-- Whether it can hold a ring of so many announcements. -/
  keepsRing : UInt64 → Bool

/-- A machine with some gigabytes of memory. -/
def Machine.usual : Machine := ⟨(· < 0x10000000), (· < 0x10000000)⟩

/-- Why a harvest gives no summary. -/
inductive HarvestError where
  | retention (error : RetentionError)
  | ledger (error : LedgerError)
  | backlog (error : BacklogError)
  /-- The name of who asks cannot be sent. -/
  | unusableAgent
  /-- The harvest breaks down, or never comes to its end. -/
  | halted (halt : Halt)
deriving DecidableEq, Repr

/-- The wording of a harvest that gives no summary. -/
def HarvestError.message : HarvestError → String
  | .retention _ => "Retention reaches beyond the calendar"
  | .ledger error => s!"Ledger error: {error.message}"
  | .backlog error => s!"Queue error: {error.message}"
  | .unusableAgent => "Downloader error: Failed to build HTTP client"
  | .halted _ => "The harvest broke down"

/-- What came of a harvest. -/
structure HarvestSummary where
  jobs : SortedMap String JobState
  unfinished : List String
  /-- Whether the harvest was stopped before its end. -/
  isInterrupted : Bool
  metrics : Metrics
deriving DecidableEq

namespace HarvestSummary

/-- The summary in JSON, with the given form of the counters. -/
def encode (summary : HarvestSummary) (metrics : Json.Value) : Json.Value :=
  .record
    [("jobs", .record (summary.jobs.entries.map fun entry => (entry.1, .text entry.2.name))),
      ("unfinished", .list (summary.unfinished.map .text)),
      ("interrupted", .bool summary.isInterrupted),
      ("metrics", metrics)]

end HarvestSummary

/-- A harvest that is going on. -/
structure Harvest where
  hub : Hub
  files : FileTree
  /-- The requests that were sent, the first one first. -/
  requests : List Request
  jobs : List String
  /-- The jobs whose tasks were handed out. -/
  pending : List String

namespace Harvest

/-- The holdings of a harvest. -/
def holdings (harvest : Harvest) : Holdings :=
  ⟨harvest.hub.ledger, harvest.hub.backlog, harvest.files⟩

/-! ## Beginning -/

/-- How many permits can be counted at most. -/
def maxPermits : UInt64 := 2305843009213693951

/-- Whether there can be an inbox of a size, which has a permit for every place. -/
def isInboxSize (size : UInt64) : Bool := 0 < size && size ≤ maxPermits

/-- Whether the hub can be set up. -/
def holdsHub (machine : Machine) (settings : MasterSettings) : Bool :=
  isInboxSize settings.eventChannelSize && machine.keepsRing settings.eventChannelSize &&
    isInboxSize settings.statisticsInboxSize && settings.maxConcurrentEvents ≤ maxPermits

/-- Whether a node can be set up. -/
def holdsNode (settings : WorkerSettings) : Bool :=
  settings.poolSize ≤ maxPermits && isInboxSize settings.channelSize

/-- A harvest with the holdings of earlier ones, after what is too old was dropped. -/
def start (machine : Machine) (settings : Settings) (held : Holdings) (now : Instant) :
    Holdings × Except HarvestError Harvest :=
  match held.ledger.prune settings.retention.days now with
  | .error error => (held, .error (.retention error))
  | .ok (ledger, _) =>
      let held := { held with ledger := ledger }
      match held.backlog.reopen with
      | .error error => (held, .error (.backlog error))
      | .ok backlog =>
          if !(holdsHub machine settings.master && machine.listsNodes settings.worker.nodes) then
            (held, .error (.halted .panicked))
          else if 0 < settings.worker.nodes ∧ !settings.worker.policy.isUsable then
            (held, .error .unusableAgent)
          else if 0 < settings.worker.nodes ∧ !holdsNode settings.worker then
            (held, .error (.halted .panicked))
          else
            let hub := Hub.start settings.worker.nodes.toNat settings.limits.limits
              settings.master.patience
            let hub := { hub with ledger := ledger, backlog := backlog }
            (held, .ok ⟨hub, held.files, [], [], []⟩)

/-- Writes resources into the ledger. -/
def addResources (resources : List Resource) (harvest : Harvest) : Harvest :=
  { harvest with
    hub := { harvest.hub with
      ledger := resources.foldl (fun ledger resource => ledger.putResource resource)
        harvest.hub.ledger } }

/-- Finishes a job without tasks. -/
def finishEmpty (job : Job) (harvest : Harvest) (now : Instant) : Except HarvestError Harvest := do
  let (ledger, _) ← (harvest.hub.ledger.setJobState job.id .finished now).mapError .ledger
  return { harvest with hub := { harvest.hub with ledger := ledger } }

/-- Writes a job into the ledger and hands out its tasks. -/
def addJob (job : Job) (now : Instant) (harvest : Harvest) : Except HarvestError Harvest :=
  let harvest := { harvest with
    hub := { harvest.hub with ledger := harvest.hub.ledger.putJob job }
    jobs := harvest.jobs ++ [job.id] }
  if job.tasks = [] then harvest.finishEmpty job now
  else
    match harvest.hub.dispatchJob job.id now with
    | (hub, .error _) => .ok { harvest with hub := hub }
    | (hub, .ok _) => .ok { harvest with hub := hub, pending := harvest.pending ++ [job.id] }

/-- Adds the jobs of a jobs file; `newName` gives the name of the job at a position if it has
none. -/
def addJobs (newName : Nat → String) (now : Instant) :
    List JobDefinition → Nat → Harvest → Except HarvestError Harvest
  | [], _, harvest => .ok harvest
  | definition :: rest, index, harvest => do
      addJobs newName now rest (index + 1)
        (← harvest.addJob (definition.toJob (newName index) now) now)

/-! ## Working -/

/-- The first values of several lists, then the second ones, and so on. -/
def interleave {α : Type} (lists : List (List α)) : List α :=
  let rec rounds : Nat → List (List α) → List α
    | 0, _ => []
    | count + 1, lists => lists.filterMap List.head? ++ rounds count (lists.map List.tail)
  rounds (lists.foldl (fun longest list => max longest list.length) 0) lists

/-- The tasks that wait for the nodes, each with the name of its node, in turn. -/
def waitingTasks (hub : Hub) : List (String × Task) :=
  interleave (hub.nodes.map fun node => node.inbox.waiting.map fun task => (node.id, task))

/-- The hub after its nodes have taken all tasks. -/
def emptied (hub : Hub) : Hub :=
  { hub with nodes := hub.nodes.map fun node => { node with inbox := .new } }

/-- What a node is set up with. -/
def nodeSetup (settings : Settings) (network : Network) (node : String) : NodeSetup where
  node := node
  policy := settings.worker.policy
  network := network
  postProcessing := .skip
  sinkKind := settings.worker.sinkKind
  folder := settings.worker.folder

/-- Lets a node carry out a task; gives the harvest afterwards, and the report unless there is
none. -/
def carryOut (settings : Settings) (network : Network) (now : Instant) (harvest : Harvest)
    (assigned : String × Task) : Harvest × Except Halt Completion :=
  let trace : NodeTrace := ⟨harvest.files, harvest.requests, harvest.hub.metrics⟩
  let (trace, report) := (nodeSetup settings network assigned.1).run assigned.2 trace now
  ({ harvest with
    hub := { harvest.hub with metrics := trace.metrics }
    files := trace.files
    requests := trace.requests }, report)

/-- Takes in the report of a node. -/
def takeIn (now : Instant) (report : Completion) (harvest : Harvest) : Harvest :=
  { harvest with hub := harvest.hub.takeMessage (Wire.encodeCompletion report) now }

/-- Lets nodes carry out tasks one after another, and takes in their reports.  A task that breaks down
is lost, but one that gets stuck is waited for. -/
def work (settings : Settings) (network : Network) (now : Instant) :
    List (String × Task) → Harvest → Harvest × Option Halt
  | [], harvest => (harvest, none)
  | assigned :: rest, harvest =>
      match harvest.carryOut settings network now assigned with
      | (harvest, .ok report) => work settings network now rest (harvest.takeIn now report)
      | (harvest, .error .stuck) => (harvest, some .stuck)
      | (harvest, .error _) => work settings network now rest harvest

/-- Lets the nodes carry out all tasks that wait for them. -/
def workAll (settings : Settings) (network : Network) (now : Instant) (harvest : Harvest) :
    Harvest × Option Halt :=
  work settings network now (waitingTasks harvest.hub) { harvest with hub := emptied harvest.hub }

/-! ## Ending -/

/-- Looks once more at the jobs that were not announced as finished. -/
def reconcileOpen (now : Instant) (harvest : Harvest) : Harvest :=
  let left := harvest.pending.filter fun job => !harvest.hub.announced.contains job
  { harvest with hub := left.foldl (fun hub job => (hub.reconcile job now).1) harvest.hub }

/-- The states of jobs that are stored. -/
def jobStates (ledger : Ledger) :
    List String → SortedMap String JobState → Except LedgerError (SortedMap String JobState)
  | [], states => .ok states
  | id :: rest, states => do
      match ← ledger.job? id with
      | some job => jobStates ledger rest (states.insert id job.state)
      | none => jobStates ledger rest states

/-- What came of a harvest. -/
def summary (harvest : Harvest) : Except HarvestError HarvestSummary := do
  let states ← (jobStates harvest.hub.ledger harvest.jobs ∅).mapError .ledger
  let unfinished := (states.entries.filter fun entry => entry.2 ≠ .finished).map Prod.fst
  return ⟨states, unfinished, false, harvest.hub.metrics⟩

/-- Harvests the jobs of a jobs file. -/
def run (machine : Machine) (settings : Settings) (network : Network) (jobs : JobsFile)
    (newName : Nat → String) (held : Holdings) (now : Instant) :
    Holdings × Except HarvestError (HarvestSummary × List Request) :=
  match start machine settings held now with
  | (held, .error error) => (held, .error error)
  | (held, .ok harvest) =>
      match addJobs newName now jobs.jobs 0 (harvest.addResources jobs.resources) with
      | .error error => (held, .error error)
      | .ok harvest =>
          match harvest.workAll settings network now with
          | (harvest, some halt) => (harvest.holdings, .error (.halted halt))
          | (harvest, none) =>
              let ended := harvest.reconcileOpen now
              (ended.holdings, ended.summary.map fun summary => (summary, ended.requests))

end Harvest

/-! ## A single link -/

/-- The task that retrieves a single link. -/
def fetchTask (settings : Settings) (url : String) (checkOnly : Bool) (name : String) : Task where
  id := name ++ ":0"
  job := name
  resource := url
  url := some url
  kind := if checkOnly then .checkLink else .unconditionalDownload
  limits := settings.limits.limits
  previousHeaders := ∅
  subTasks := []
  owner := ⟨"", "", "", ""⟩

/-- Retrieves a single link into memory. -/
def fetchLink (settings : Settings) (network : Network) (url : String) (checkOnly : Bool)
    (name : String) : Except HarvestError (Session MemorySink) :=
  let policy := settings.worker.policy
  if !policy.isUsable then .error .unusableAgent
  else
    let task := fetchTask settings url checkOnly name
    let terms : Terms := ⟨network, policy, task.limits, none⟩
    match Session.retrieve terms task (Session.start MemorySink.new [] .zero) with
    | (session, none) => .ok session
    | (_, some halt) => .error (.halted halt)

end MediaHarvest
