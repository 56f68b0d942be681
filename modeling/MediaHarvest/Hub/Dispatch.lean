import MediaHarvest.Hub.Basic

/-!
# Handing out tasks

A task is written to the backlog and accounted before it is handed to a node, so that no report can
come in for a task that the hub does not know.  The node with the lowest load takes it; among
several of them the next one in turn.
-/

namespace MediaHarvest

/-- Why a task or a job is not handed out. -/
inductive DispatchError where
  | backlog (error : BacklogError)
  | ledger (error : LedgerError)
  | accounting (error : AccountingError)
  | jobNotFound (job : String)
  /-- The job has no task at this position. -/
  | taskNotFound (job : String) (index : Nat)
  /-- The job cannot be started in its state. -/
  | jobNotStartable (job : String) (state : JobState)
  | nodeUnavailable (node : String)
  | noNodes
deriving DecidableEq, Repr

/-- The word for a state in the refusal to start a job. -/
def JobState.word : JobState → String
  | .ready => "Ready"
  | .running => "Running"
  | .pause => "Pause"
  | .resume => "Resume"
  | .finished => "Finished"

/-- The wording of a refused dispatch. -/
def DispatchError.message : DispatchError → String
  | .backlog error => s!"Queue error: {error.message}"
  | .ledger error => s!"Ledger error: {error.message}"
  | .accounting error => s!"Accounting error: {error.message}"
  | .jobNotFound job => s!"Job not found: {job}"
  | .taskNotFound job index => s!"Job {job} has no task {index}"
  | .jobNotStartable job state => s!"Job {job} is {state.word} and cannot be started"
  | .nodeUnavailable node => s!"Node {node} is not accepting tasks"
  | .noNodes => "No worker nodes configured"

/-- What became of a task that is to be handed out. -/
inductive Dispatched where
  | sent (number : UInt64) (node : String)
  | alreadyAssigned
  /-- Its job does not hand out tasks. -/
  | held (state : JobState)
deriving DecidableEq, Repr

namespace Hub

/-- The job with a name, which has to be there. -/
def findJob (hub : Hub) (id : String) : Except DispatchError Job := do
  match ← (hub.ledger.job? id).mapError .ledger with
  | some job => return job
  | none => throw (.jobNotFound id)

/-- Writes a new state of a job if its present one is among `sources`; gives the job as it is
stored afterwards. -/
def moveJob (hub : Hub) (id : String) (sources : List JobState) (target : JobState)
    (now : Instant) : Hub × Except DispatchError Job :=
  match hub.ledger.moveJob id sources target now with
  | .ok (ledger, job) => ({ hub with ledger := ledger }, .ok job)
  | .error (.jobNotFound id) => (hub, .error (.jobNotFound id))
  | .error error => (hub, .error (.ledger error))

/-! ## Picking a node -/

/-- The positions of `count` nodes in the order of their turns. -/
def turnOrder (turn count : Nat) : List Nat :=
  (List.range count).map fun offset => (turn + offset) % count

/-- The first of the positions with the lowest load. -/
def leastLoaded (load : Nat → Nat) : List Nat → Option Nat
  | [] => none
  | index :: rest =>
      match leastLoaded load rest with
      | none => some index
      | some other => if load other < load index then some other else some index

/-- The load of the node at a position. -/
def loadAt (hub : Hub) (index : Nat) : Nat :=
  match hub.nodes[index]? with
  | some node => hub.accountant.load node.id
  | none => 0

/-- The position of the node that takes the next task. -/
def pickNode (hub : Hub) : Option Nat :=
  leastLoaded hub.loadAt (turnOrder hub.turn hub.nodes.length)

/-! ## Dispatch -/

/-- Starts a job whose first task is handed out. -/
def begin (hub : Hub) (job : Job) (id : String) (now : Instant) :
    Hub × Except DispatchError Unit :=
  match job.state with
  | .ready | .resume =>
      match hub.moveJob id [.ready, .resume] .running now with
      | (hub, .ok _) => (hub, .ok ())
      | (hub, .error error) => (hub, .error error)
  | _ => (hub, .ok ())

/-- Hands an accounted task to the node at a position.  If the node does not take it, the account
forgets the task and the backlog buries it. -/
def deliver (hub : Hub) (number : UInt64) (job : String) (task : Task) (index : Nat) (node : Node)
    (now : Instant) : Hub × Except DispatchError Dispatched :=
  match node.inbox.send? task with
  | some inbox =>
      ({ hub with nodes := hub.nodes.set index { node with inbox := inbox } }.count
          Metrics.taskDispatched,
        .ok (.sent number node.id))
  | none =>
      let hub := { hub with accountant := hub.accountant.withdraw job task.id }
      match hub.backlog.bury number s!"node {node.id} channel closed" now with
      | .error error => (hub, .error (.backlog error))
      | .ok backlog =>
          ({ hub with backlog := backlog }, .error (.nodeUnavailable node.id))

/-- Writes down, accounts and hands over a task that is not outstanding. -/
def place (hub : Hub) (job : Job) (id : String) (task : Task) (now : Instant) :
    Hub × Except DispatchError Dispatched :=
  match hub.pickNode with
  | none => (hub, .error .noNodes)
  | some index =>
      match hub.nodes[index]? with
      | none => (hub, .error .noNodes)
      | some node =>
          let (number, backlog) := hub.backlog.enqueue task
          let hub := { hub with backlog := backlog, turn := hub.turn + 1 }
          match hub.accountant.assign id task.id task node.id with
          | .error error => (hub, .error (.accounting error))
          | .ok accountant =>
              match { hub with accountant := accountant }.begin job id now with
              | (hub, .error error) => (hub, .error error)
              | (hub, .ok ()) => hub.deliver number id task index node now

/-- Hands a task of a job to a node. -/
def dispatch (hub : Hub) (id : String) (task : Task) (now : Instant) :
    Hub × Except DispatchError Dispatched :=
  match hub.findJob id with
  | .error error => (hub, .error error)
  | .ok job =>
      if !job.state.acceptsDispatch then (hub, .ok (.held job.state))
      else if hub.accountant.hasTask id task.id then (hub, .ok .alreadyAssigned)
      else hub.place job id task now

/-! ## Whole jobs -/

/-- The header fields that the previous execution of a planned task saw, if it is to be asked for
changes only. -/
def previousHeaders (hub : Hub) (job : Job) (planned : PlannedTask) :
    Except DispatchError Headers :=
  if planned.kind = .conditionalDownload then do
    let latest ← (hub.ledger.latest? ⟨planned.resource, planned.kind, job.role⟩).mapError .ledger
    match latest with
    | some latest => return latest.measurements.headers
    | none => return ∅
  else return ∅

/-- The task of a job at a position, as a node carries it out. -/
def buildTask (hub : Hub) (job : Job) (index : Nat) : Except DispatchError Task := do
  match job.tasks[index]? with
  | none => throw (.taskNotFound job.id index)
  | some planned =>
      let resource ← (hub.ledger.resource? planned.resource).mapError .ledger
      let previousHeaders ← hub.previousHeaders job planned
      return {
        id := job.taskId index
        job := job.id
        resource := planned.resource
        url := resource.bind (·.url)
        kind := planned.kind
        limits := if job.limits = .unlimited then hub.defaultLimits else job.limits
        previousHeaders := previousHeaders
        subTasks := planned.subTasks
        owner := job.owner }

/-- Hands out the tasks of a job at the given positions, until the job is held; gives how many were
sent in addition to `sent`. -/
def dispatchTasks (job : Job) (id : String) (now : Instant) :
    List Nat → Nat → Hub → Hub × Except DispatchError Nat
  | [], sent, hub => (hub, .ok sent)
  | index :: rest, sent, hub =>
      match hub.buildTask job index with
      | .error error => (hub, .error error)
      | .ok task =>
          match hub.dispatch id task now with
          | (hub, .error error) => (hub, .error error)
          | (hub, .ok (.sent ..)) => dispatchTasks job id now rest (sent + 1) hub
          | (hub, .ok .alreadyAssigned) => dispatchTasks job id now rest sent hub
          | (hub, .ok (.held _)) => (hub, .ok sent)

/-- Hands out every task of a job that is not outstanding; gives how many were sent. -/
def dispatchJob (hub : Hub) (id : String) (now : Instant) : Hub × Except DispatchError Nat :=
  match hub.findJob id with
  | .error error => (hub, .error error)
  | .ok job => dispatchTasks job id now (List.range job.tasks.length) 0 hub

/-- Starts a job, or starts it again. -/
def startJob (hub : Hub) (id : String) (now : Instant) : Hub × Except DispatchError Nat :=
  match hub.moveJob id [.ready, .running, .pause] .resume now with
  | (hub, .error error) => (hub, .error error)
  | (hub, .ok job) =>
      if job.state = .finished then (hub, .error (.jobNotStartable id job.state))
      else hub.dispatchJob id now

/-- Stops a job, unless it is finished; gives its state afterwards. -/
def stopJob (hub : Hub) (id : String) (now : Instant) : Hub × Except DispatchError JobState :=
  match hub.moveJob id [.ready, .running, .resume] .pause now with
  | (hub, .error error) => (hub, .error error)
  | (hub, .ok job) => (hub, .ok job.state)

end Hub

end MediaHarvest
