import MediaHarvest.Harvest.Run
import MediaHarvest.Proofs.Retrieval.Returning
import Mathlib.Algebra.Group.Nat.Defs
import Mathlib.Logic.Relation

/-!
# A harvest whose parts work side by side

Jobs are added and handed out, nodes take tasks and carry them out, reports are published, received,
recorded and taken into account.  Each part does one thing after another, but which part has the
next turn is open.  `Fleet` joins the states of all parts, and `Fleet.perform` says what a part does
when it has its turn.

Inboxes, pools and channels have room for so much only.  What a part could not put anywhere stands
in the same list as what has its place, behind it; the part waits as long as it is there.
`Fleet.Allows` says which parts do not wait.
-/

namespace MediaHarvest

/-- The tasks of a job that are being handed out. -/
structure Handout where
  /-- The name under which the job was asked for. -/
  id : String
  /-- The job as it was stored then. -/
  job : Job
  /-- The positions of the tasks that are left. -/
  left : List Nat

/-- There are nodes, there is room for something everywhere, and no size is too large: for permits to
be counted, or for the memory of the machine. -/
structure Settings.HasRoom (machine : Machine) (settings : Settings) : Prop where
  nodes : 0 < settings.worker.nodes
  poolSize : 0 < settings.worker.poolSize
  channelSize : 0 < settings.worker.channelSize
  eventChannelSize : 0 < settings.master.eventChannelSize
  statisticsInboxSize : 0 < settings.master.statisticsInboxSize
  maxConcurrentEvents : 0 < settings.master.maxConcurrentEvents
  /-- Permits are counted up to a number that no size exceeds. -/
  counted : ∀ size ∈ [settings.worker.poolSize, settings.worker.channelSize,
    settings.master.eventChannelSize, settings.master.statisticsInboxSize,
    settings.master.maxConcurrentEvents], size ≤ Harvest.maxPermits
  listsNodes : machine.listsNodes settings.worker.nodes = true
  keepsRing : machine.keepsRing settings.master.eventChannelSize = true

/-- A harvest with what is under way between its parts. -/
structure Fleet where
  harvest : Harvest
  /-- The jobs that were not added, each after the name that it gets if it has none. -/
  upcoming : List (String × JobDefinition)
  handing : Option Handout
  /-- The tasks that were taken, each after the name of its node, the oldest first. -/
  running : List (String × Task)
  /-- The reports that were not published. -/
  reports : List Completion
  /-- The messages that were published, the oldest first. -/
  arriving : List Bytes
  /-- The reports that were not recorded, the oldest first. -/
  inbox : List Completion
  /-- The reports that were not taken into account, the oldest first. -/
  inFlight : List Completion

namespace Harvest

/-- The harvest with another hub. -/
def setHub (harvest : Harvest) (hub : Hub) : Harvest := { harvest with hub := hub }

/-- Writes a job into the ledger. -/
def noteJob (job : Job) (harvest : Harvest) : Harvest :=
  { harvest with
    hub := { harvest.hub with ledger := harvest.hub.ledger.putJob job }
    jobs := harvest.jobs ++ [job.id] }

/-- Notes that the tasks of a job were handed out. -/
def expect (id : String) (harvest : Harvest) : Harvest :=
  { harvest with pending := harvest.pending ++ [id] }

/-- Looks once more at some jobs. -/
def lookAgain (jobs : List String) (now : Instant) (harvest : Harvest) : Harvest :=
  harvest.setHub (jobs.foldl (fun hub job => (hub.reconcile job now).1) harvest.hub)

/-- The parts at their start, with the jobs of a jobs file. -/
def launch (harvest : Harvest) (jobs : JobsFile) (newName : Nat → String) : Fleet where
  harvest := harvest.addResources jobs.resources
  upcoming := jobs.jobs.zipIdx.map fun entry => (newName entry.2, entry.1)
  handing := none
  running := []
  reports := []
  arriving := []
  inbox := []
  inFlight := []

end Harvest

namespace Fleet

/-- The fleet with another hub. -/
def setHub (fleet : Fleet) (hub : Hub) : Fleet :=
  { fleet with harvest := fleet.harvest.setHub hub }

/-! ## Handing out -/

/-- Writes the next job down, finishes it if it has no tasks, and begins to hand it out if it has
some.  A job that is not found is not handed out; none if a job without tasks cannot be finished. -/
def add (now : Instant) (fleet : Fleet) : Option Fleet :=
  match fleet.handing, fleet.upcoming with
  | none, (name, definition) :: rest =>
      let job := definition.toJob name now
      let fleet := { fleet with harvest := fleet.harvest.noteJob job, upcoming := rest }
      if job.tasks = [] then
        (fleet.harvest.finishEmpty job now).toOption.map fun harvest =>
          { fleet with harvest := harvest }
      else
        match fleet.harvest.hub.findJob job.id with
        | .error _ => some fleet
        | .ok stored =>
            some { fleet with handing := some ⟨job.id, stored, List.range stored.tasks.length⟩ }
  | _, _ => none

/-- Hands the next task of the job to a node.  If that fails, the others are left. -/
def hand (now : Instant) (fleet : Fleet) : Option Fleet :=
  match fleet.handing with
  | none => none
  | some ⟨id, _, []⟩ => some { fleet with harvest := fleet.harvest.expect id, handing := none }
  | some ⟨id, job, index :: rest⟩ =>
      match fleet.harvest.hub.buildTask job index with
      | .error _ => some { fleet with handing := none }
      | .ok task =>
          match fleet.harvest.hub.dispatch id task now with
          | (hub, .error _) => some { fleet.setHub hub with handing := none }
          | (hub, .ok (.held _)) =>
              some { fleet with
                harvest := (fleet.harvest.setHub hub).expect id
                handing := none }
          | (hub, .ok _) => some { fleet.setHub hub with handing := some ⟨id, job, rest⟩ }

/-! ## Nodes -/

/-- Lets the node at a position take a task out of its inbox. -/
def take (node : Nat) (fleet : Fleet) : Option Fleet :=
  match fleet.harvest.hub.nodes[node]?, fleet.harvest.hub.takeTask node with
  | some taker, (some task, hub) =>
      some { fleet.setHub hub with running := fleet.running ++ [(taker.id, task)] }
  | _, _ => none

/-- Lets a node carry out a task that it has taken.  A task that breaks down is lost; none if it gets
stuck. -/
def work (settings : Settings) (network : Network) (index : Nat) (now : Instant) (fleet : Fleet) :
    Option Fleet :=
  match fleet.running[index]? with
  | none => none
  | some assigned =>
      match fleet.harvest.carryOut settings network now assigned with
      | (harvest, .ok report) =>
          some { fleet with
            harvest := harvest
            running := fleet.running.eraseIdx index
            reports := fleet.reports ++ [report] }
      | (_, .error .stuck) => none
      | (harvest, .error _) =>
          some { fleet with harvest := harvest, running := fleet.running.eraseIdx index }

/-- Publishes a report. -/
def publish (index : Nat) (fleet : Fleet) : Option Fleet :=
  match fleet.reports[index]? with
  | none => none
  | some report =>
      some { fleet with
        reports := fleet.reports.eraseIdx index
        arriving := fleet.arriving ++ [Wire.encodeCompletion report] }

/-! ## Taking in reports -/

/-- Receives the next message, and passes it on if it is a report. -/
def receive (fleet : Fleet) : Option Fleet :=
  match fleet.arriving with
  | [] => none
  | message :: rest =>
      match Wire.decodeCompletion message with
      | .error _ =>
          some { fleet.setHub (fleet.harvest.hub.count Metrics.eventUndecodable) with
            arriving := rest }
      | .ok completion =>
          some { fleet.setHub (fleet.harvest.hub.count Metrics.eventReceived) with
            arriving := rest
            inbox := fleet.inbox ++ [completion]
            inFlight := fleet.inFlight ++ [completion] }

/-- Records the oldest report. -/
def record (now : Instant) (fleet : Fleet) : Option Fleet :=
  match fleet.inbox with
  | [] => none
  | completion :: rest =>
      some { fleet.setHub (fleet.harvest.hub.record completion now).1 with inbox := rest }

/-- Takes a report into account. -/
def settle (index : Nat) (now : Instant) (fleet : Fleet) : Option Fleet :=
  match fleet.inFlight[index]? with
  | none => none
  | some completion =>
      some { fleet.setHub (fleet.harvest.hub.onCompletion completion now).1 with
        inFlight := fleet.inFlight.eraseIdx index }

/-! ## Turns -/

/-- A turn of a part. -/
inductive Move where
  | add
  | hand
  | take (node : Nat)
  | work (index : Nat)
  | publish (index : Nat)
  | receive
  | record
  | settle (index : Nat)

/-- What a part does when it has its turn; none if there is nothing for it to do. -/
def perform (settings : Settings) (network : Network) (now : Instant) (fleet : Fleet) :
    Move → Option Fleet
  | .add => fleet.add now
  | .hand => fleet.hand now
  | .take node => fleet.take node
  | .work index => fleet.work settings network index now
  | .publish index => fleet.publish index
  | .receive => fleet.receive
  | .record => fleet.record now
  | .settle index => fleet.settle index now

/-- How many of the oldest tasks under way are with a node. -/
def ofNode (fleet : Fleet) (count : Nat) (node : String) : Nat :=
  (fleet.running.take count).countP fun assigned => assigned.1 = node

/-- Whether a part does not wait for room. -/
def Allows (settings : Settings) (fleet : Fleet) : Move → Prop
  | .add | .hand =>
      ∀ node ∈ fleet.harvest.hub.nodes,
        node.inbox.waiting.length ≤ settings.worker.channelSize.toNat
  | .take node =>
      ∀ taker, fleet.harvest.hub.nodes[node]? = some taker →
        fleet.ofNode fleet.running.length taker.id ≤ settings.worker.poolSize.toNat
  | .work index =>
      ∀ assigned, fleet.running[index]? = some assigned →
        fleet.ofNode index assigned.1 < settings.worker.poolSize.toNat
  | .publish _ => fleet.arriving.length < settings.master.eventChannelSize.toNat
  | .receive =>
      fleet.inbox.length ≤ settings.master.statisticsInboxSize.toNat ∧
        fleet.inFlight.length ≤ settings.master.maxConcurrentEvents.toNat
  | .record => 0 < settings.master.statisticsInboxSize.toNat
  | .settle index =>
      index < settings.master.maxConcurrentEvents.toNat ∧
        -- a report that waits for the recorder is not taken into account before
        (fleet.inbox.length ≤ settings.master.statisticsInboxSize.toNat ∨
          index + 1 < fleet.inFlight.length)

/-- Some part has its turn, at a time that the clock can show. -/
def Step (settings : Settings) (network : Network) (clock : Instant → Prop)
    (fleet after : Fleet) : Prop :=
  ∃ move now, clock now ∧ fleet.perform settings network now move = some after

/-- Any number of turns, in any order. -/
def Reaches (settings : Settings) (network : Network) (clock : Instant → Prop) :
    Fleet → Fleet → Prop :=
  Relation.ReflTransGen (Step settings network clock)

/-- Every task that a node has taken can be carried out. -/
structure Works (settings : Settings) (network : Network) (clock : Instant → Prop)
    (fleet : Fleet) : Prop where
  /-- Its sink opens. -/
  opens : ∀ assigned ∈ fleet.running, ∃ files sink,
    AnySink.create settings.worker.sinkKind fleet.harvest.files settings.worker.folder
      (StoragePath.ofTask assigned.2) = (files, .ok sink)
  /-- Every wait for the network has an end. -/
  ends : ∀ assigned ∈ fleet.running,
    ((Harvest.nodeSetup settings network assigned.1).terms assigned.2).LetEnd
  /-- The length of its report is a word. -/
  fits : ∀ assigned ∈ fleet.running, ∀ now, clock now → ∀ harvest report,
    fleet.harvest.carryOut settings network now assigned = (harvest, .ok report) →
    (Wire.encodeCompletion report).length < 2 ^ 64

/-- No part has anything left to do. -/
structure Done (fleet : Fleet) : Prop where
  upcoming : fleet.upcoming = []
  handing : fleet.handing = none
  waiting : ∀ node ∈ fleet.harvest.hub.nodes, node.inbox.waiting = []
  running : fleet.running = []
  reports : fleet.reports = []
  arriving : fleet.arriving = []
  inbox : fleet.inbox = []
  inFlight : fleet.inFlight = []

end Fleet

end MediaHarvest
