import MediaHarvest.Accounting
import MediaHarvest.Backlog
import MediaHarvest.Channel
import MediaHarvest.Ledger.Basic
import MediaHarvest.Metrics

/-!
# The hub

The hub hands the tasks of jobs to nodes and takes their reports.  Its state joins the ledger, the
backlog, the accounts, the inboxes of the nodes and the counters.  Every operation gives the new
state next to its answer, since a refused operation may leave something behind.
-/

namespace MediaHarvest

/-- A node that carries out tasks. -/
structure Node where
  id : String
  inbox : Channel Task
deriving DecidableEq

/-- The state of the hub. -/
structure Hub where
  ledger : Ledger
  backlog : Backlog
  accountant : Accountant
  nodes : List Node
  turn : Nat
  metrics : Metrics
  /-- The jobs that were announced as finished, the first one first. -/
  announced : List String
  /-- The limits of jobs that have none of their own. -/
  defaultLimits : Limits
  /-- How long a report waits for an account that someone else holds. -/
  patience : Span
deriving DecidableEq

namespace Hub

/-- The name of the node at a position. -/
def nodeName (index : Nat) : String := s!"node-{index}"

/-- A hub with nothing stored and a number of nodes. -/
def start (nodes : Nat) (defaultLimits : Limits) (patience : Span) : Hub where
  ledger := .empty
  backlog := .empty
  accountant := .empty
  nodes := (List.range nodes).map fun index => ⟨nodeName index, .new⟩
  turn := 0
  metrics := .zero
  announced := []
  defaultLimits := defaultLimits
  patience := patience

/-- The hub with other counters. -/
def count (hub : Hub) (change : Metrics → Metrics) : Hub :=
  { hub with metrics := change hub.metrics }

/-- Whether every node takes tasks. -/
def isHealthy (hub : Hub) : Bool := hub.nodes.all (·.inbox.isOpen)

/-- Takes the next task out of the inbox of a node. -/
def takeTask (hub : Hub) (index : Nat) : Option Task × Hub :=
  match hub.nodes[index]? with
  | none => (none, hub)
  | some node =>
      let (task, inbox) := node.inbox.receive
      (task, { hub with nodes := hub.nodes.set index { node with inbox := inbox } })

/-- Closes the inbox of a node. -/
def closeNode (hub : Hub) (index : Nat) : Hub :=
  match hub.nodes[index]? with
  | none => hub
  | some node =>
      { hub with nodes := hub.nodes.set index { node with inbox := node.inbox.close } }

/-- Closes the stores and opens them again; the turns of the nodes begin anew. -/
def reopen (hub : Hub) : Except BacklogError Hub := do
  let backlog ← hub.backlog.reopen
  return { hub with backlog := backlog, turn := 0 }

end Hub

end MediaHarvest
