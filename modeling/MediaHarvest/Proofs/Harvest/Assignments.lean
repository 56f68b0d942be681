import MediaHarvest.Proofs.Harvest.Accomplished

/-!
# Where the tasks of nodes come from

A node carries out nothing but what the jobs of the file plan: every task that waits for it or that
it has taken is one of such a job, and its link is the one that the ledger has held for the resource
from the start.  So whether tasks can be carried out only has to be asked of planned tasks.
-/

namespace MediaHarvest

open Ledger

/-! ## Links -/

namespace Ledger

variable {ledger after : Ledger}

/-- The link of a resource; none if the resource is not stored or has none. -/
def link? (ledger : Ledger) (id : String) : Except LedgerError (Option String) := do
  return (← ledger.resource? id).bind (·.url)

theorem link?_of_resources_eq (same : after.resources = ledger.resources) (id : String) :
    after.link? id = ledger.link? id := by
  rw [link?, resource?_of_resources_eq same]
  rfl

/-- Recording a report changes no link. -/
theorem link?_record (named : ledger.Named) (completion : Completion) (now : Instant) (id : String) :
    (ledger.record completion now).1.link? id = ledger.link? id := by
  rcases resource?_record named completion now id with
    same | ⟨_, resource, execution, found, renewed⟩
  · rw [link?, same]
    rfl
  · rw [link?, link?, found, renewed]
    cases resource with
    | none => rfl
    | some resource => rfl

/-- A new state of a job leaves the resources as they are. -/
theorem resources_setJobState {id : String} {state : JobState} {now : Instant} {job : Job}
    (done : ledger.setJobState id state now = .ok (after, job)) :
    after.resources = ledger.resources := by
  rcases bind_eq_ok_iff.1 done with ⟨before, _, written⟩
  cases written
  rfl

end Ledger

/-! ## Tasks and nodes -/

/-- A task is what a job plans at a position, for the link of the resource. -/
structure Task.Follows (ledger : Ledger) (job : Job) (index : Nat) (planned : PlannedTask)
    (task : Task) : Prop where
  there : job.tasks[index]? = some planned
  id : task.id = job.taskId index
  /-- Limits that the job sets are its own. -/
  limits : job.limits ≠ .unlimited → task.limits = job.limits
  job : task.job = job.id
  resource : task.resource = planned.resource
  kind : task.kind = planned.kind
  subTasks : task.subTasks = planned.subTasks
  link : ledger.link? planned.resource = .ok task.url

/-- A task is one of a job of a file. -/
def Task.Planned (file : List Job) (ledger : Ledger) (task : Task) : Prop :=
  ∃ job ∈ file, ∃ index planned, task.Follows ledger job index planned

namespace Hub

variable {hub after : Hub} {job : Job} {task : Task}

/-- A task that is built is what the job plans. -/
theorem follows_of_buildTask {index : Nat} (built : hub.buildTask job index = .ok task) :
    ∃ planned, task.Follows hub.ledger job index planned := by
  rcases buildTask_eq_ok_iff.1 built with ⟨planned, resource, headers, there, found, _, rfl⟩
  refine ⟨planned, there, rfl, fun limited => if_neg limited, rfl, rfl, rfl, rfl, ?_⟩
  rw [link?, found]
  rfl

/-- The nodes of a hub have their names, and what waits for them is planned. -/
structure Assigns (file : List Job) (ledger : Ledger) (names : List String) (hub : Hub) :
    Prop where
  named : hub.ledger.Named
  links : ∀ id, hub.ledger.link? id = ledger.link? id
  nodes : hub.nodes.map Node.id = names
  waiting : ∀ task ∈ waiting hub.nodes, task.Planned file ledger

variable {file : List Job} {ledger : Ledger} {names : List String}

theorem Assigns.of_same (assigns : hub.Assigns file ledger names)
    (resources : after.ledger.resources = hub.ledger.resources) (nodes : after.nodes = hub.nodes) :
    after.Assigns file ledger names where
  named := assigns.named.of_resources_eq resources
  links id := (link?_of_resources_eq resources id).trans (assigns.links id)
  nodes := by
    rw [nodes]
    exact assigns.nodes
  waiting := by
    rw [nodes]
    exact assigns.waiting

/-- A planned task is handed to a node. -/
theorem Assigns.dispatch (assigns : hub.Assigns file ledger names) (orderly : hub.Orderly)
    (planned : task.Planned file ledger) (id : String) (now : Instant) :
    (hub.dispatch id task now).1.Assigns file ledger names := by
  have resources := (handed_dispatch orderly id task now).steady.resources
  rcases delivered_dispatch orderly id task now with same | ⟨node, delivered⟩
  · exact assigns.of_same resources same
  · constructor
    · exact assigns.named.of_resources_eq resources
    · exact fun other => (link?_of_resources_eq resources other).trans (assigns.links other)
    · exact delivered.map_id.trans assigns.nodes
    · intro other mem
      rcases List.mem_cons.1 (delivered.waiting.subset mem) with rfl | old
      · exact planned
      · exact assigns.waiting other old

/-- A node takes a task. -/
theorem Assigns.take (assigns : hub.Assigns file ledger names) {index : Nat} {node : Node}
    {rest : List Task} (there : hub.nodes[index]? = some node)
    (waits : node.inbox.waiting = task :: rest) :
    node.id ∈ names ∧ task.Planned file ledger ∧
      (hub.takeTask index).2.Assigns file ledger names := by
  have mem := List.mem_of_getElem? there
  have left : (Hub.waiting hub.nodes).Perm
      (task :: Hub.waiting (hub.nodes.set index (withWaiting node rest))) :=
    flatMap_taken there waits
  rw [takeTask_of_waiting there waits]
  refine ⟨?_, ?_, assigns.named, assigns.links, ?_, ?_⟩
  · rw [← assigns.nodes]
    exact List.mem_map_of_mem mem
  · exact assigns.waiting task (left.symm.subset List.mem_cons_self)
  · exact (map_set (withWaiting node rest) there rfl).trans assigns.nodes
  · exact fun other waits => assigns.waiting other (left.symm.subset (List.mem_cons_of_mem _ waits))

end Hub

/-! ## Turns -/

namespace Fleet

variable {file added : List Job} {journal : List Entry} {ledger : Ledger} {names : List String}
  {fleet after : Fleet} {settings : Settings} {network : Network} {clock : Instant → Prop}
  {now : Instant}

/-- Nodes have taken planned tasks only, and only planned tasks wait for them. -/
structure Assigned (file : List Job) (ledger : Ledger) (names : List String) (fleet : Fleet) :
    Prop where
  hub : fleet.harvest.hub.Assigns file ledger names
  running : ∀ assigned ∈ fleet.running, assigned.1 ∈ names ∧ assigned.2.Planned file ledger

/-- A job is added. -/
theorem Assigned.add (assigned : fleet.Assigned file ledger names)
    (done : fleet.add now = some after) : after.Assigned file ledger names := by
  have noted (job : Job) :
      (fleet.harvest.noteJob job).hub.Assigns file ledger names :=
    assigned.hub.of_same rfl rfl
  rw [Fleet.add] at done
  split at done
  · next name definition rest _ _ =>
    dsimp only at done
    split at done
    · rcases finished : (fleet.harvest.noteJob (definition.toJob name now)).finishEmpty
        (definition.toJob name now) now with error | harvest
      · rw [finished] at done
        cases done
      · rw [finished] at done
        cases done
        rcases bind_eq_ok_iff.1 finished with ⟨⟨restated, _⟩, written, same⟩
        cases same
        have resources := resources_setJobState (mapError_eq_ok_iff.1 written)
        exact ⟨(noted _).of_same resources rfl, assigned.running⟩
    · split at done
      · cases done
        exact ⟨noted _, assigned.running⟩
      · cases done
        exact ⟨noted _, assigned.running⟩
  · cases done

/-- A task is handed to a node. -/
theorem Assigned.hand (assigned : fleet.Assigned file ledger names)
    (going : fleet.Going file added journal) (done : fleet.hand now = some after) :
    after.Assigned file ledger names := by
  rw [Fleet.hand] at done
  split at done
  · cases done
  · cases done
    exact ⟨assigned.hub.of_same rfl rfl, assigned.running⟩
  · next id stored index rest busy =>
    split at done
    · cases done
      exact ⟨assigned.hub, assigned.running⟩
    · next task built =>
      have planned : task.Planned file ledger := by
        rcases going.plans.handing _ busy with ⟨job, mem, follows⟩
        rcases Hub.follows_of_buildTask built with ⟨planned, made⟩
        have listed : job ∈ file := by
          rw [going.plans.split]
          exact List.mem_append_left _ mem
        refine ⟨job, listed, index, planned, ?_⟩
        constructor
        · rw [← follows.tasks]
          exact made.there
        · rw [made.id, Job.taskId, follows.id]
          rfl
        · rw [← follows.limits]
          exact made.limits
        · exact made.job.trans follows.id
        · exact made.resource
        · exact made.kind
        · exact made.subTasks
        · exact (assigned.hub.links _).symm.trans made.link
      have hub := assigned.hub.dispatch going.serves.agree.orderly planned id now
      rcases dispatched : fleet.harvest.hub.dispatch id task now with
        ⟨next, error | _ | _ | state⟩
      all_goals
        rw [dispatched] at done hub
        cases done
        exact ⟨hub.of_same rfl rfl, assigned.running⟩

/-- A node takes a task. -/
theorem Assigned.take (assigned : fleet.Assigned file ledger names) {node : Nat} {taker : Node}
    (there : fleet.harvest.hub.nodes[node]? = some taker) (waits : taker.inbox.waiting ≠ [])
    (done : fleet.take node = some after) : after.Assigned file ledger names := by
  rcases List.exists_cons_of_ne_nil waits with ⟨task, rest, waits⟩
  rcases assigned.hub.take there waits with ⟨named, planned, hub⟩
  rw [Fleet.take, there] at done
  rw [Hub.takeTask_of_waiting there waits] at done hub
  cases done
  constructor
  · exact hub
  · intro other mem
    rcases List.mem_append.1 mem with old | own
    · exact assigned.running other old
    · rw [List.mem_singleton.1 own]
      exact ⟨named, planned⟩

/-- What nodes take stays planned. -/
theorem Assigned.perform (assigned : fleet.Assigned file ledger names)
    (going : fleet.Going file added journal) {move : Move}
    (done : fleet.perform settings network now move = some after) :
    after.Assigned file ledger names := by
  cases move with
  | add => exact assigned.add done
  | hand => exact assigned.hand going done
  | take node =>
      cases ready_of_perform done with
      | take there waits => exact assigned.take there waits done
  | work index =>
      have left : ∀ other ∈ fleet.running.eraseIdx index,
          other.1 ∈ names ∧ other.2.Planned file ledger :=
        fun other mem => assigned.running other (List.mem_of_mem_eraseIdx mem)
      rw [Fleet.perform, Fleet.work] at done
      split at done
      · cases done
      · next taken _ =>
        have hub : (fleet.harvest.carryOut settings network now taken).1.hub.Assigns file ledger
            names := assigned.hub.of_same rfl rfl
        split at done
        · next carried =>
          rw [carried] at hub
          cases done
          exact ⟨hub, left⟩
        · cases done
        · next carried =>
          rw [carried] at hub
          cases done
          exact ⟨hub, left⟩
  | publish index =>
      rw [Fleet.perform, Fleet.publish] at done
      split at done
      · cases done
      · cases done
        exact ⟨assigned.hub, assigned.running⟩
  | receive =>
      rw [Fleet.perform, Fleet.receive] at done
      split at done
      · cases done
      · split at done
        all_goals
          cases done
          exact ⟨assigned.hub.of_same rfl rfl, assigned.running⟩
  | record =>
      rw [Fleet.perform, Fleet.record] at done
      split at done
      · cases done
      · next completion rest inbox =>
        cases done
        refine ⟨?_, assigned.running⟩
        dsimp only [setHub, Harvest.setHub]
        rw [Hub.record_eq]
        constructor
        · exact assigned.hub.named.record completion now
        · exact fun id => (link?_record assigned.hub.named ..).trans (assigned.hub.links id)
        · exact assigned.hub.nodes
        · exact assigned.hub.waiting
  | settle index =>
      rw [Fleet.perform, Fleet.settle] at done
      split at done
      · cases done
      · next completion there =>
        cases done
        have orderly := going.serves.agree.orderly
        have alike :=
          (Hub.settles_onCompletion orderly.free orderly.filed completion now).ledger
        have undisturbed := Hub.undisturbed_onCompletion fleet.harvest.hub completion now
        exact ⟨assigned.hub.of_same alike.resources.symm undisturbed.nodes, assigned.running⟩

/-- If planned tasks can be carried out, every task that a node has taken can be, whatever turns
were taken before. -/
theorem Assigned.works (assigned : fleet.Assigned file ledger names)
    (underway : fleet.Underway file) (listing : Job.Listing file)
    (plain : ∀ time, clock time → time.Plain)
    (works : ∀ middle : Fleet, middle.Assigned file ledger names →
      middle.Works settings network clock)
    (reaches : Reaches settings network clock fleet after) :
    after.Works settings network clock := by
  -- together, since a harvest only stays under way if tasks can be carried out
  have kept : after.Underway file ∧ after.Assigned file ledger names := by
    induction reaches with
    | refl => exact ⟨underway, assigned⟩
    | tail before step ih =>
        rcases ih with ⟨⟨added, journal, going⟩, assigned⟩
        have advances := Underway.step ⟨added, journal, going⟩ listing (works _ assigned) plain step
        rcases step with ⟨move, now, _, done⟩
        exact ⟨advances.2, assigned.perform going done⟩
  exact works after kept.2

end Fleet

/-- At its start a harvest has assigned nothing. -/
theorem Harvest.Fresh.assigned {settings : Settings} {harvest : Harvest}
    (fresh : harvest.Fresh settings) (jobs : JobsFile) (newName : Nat → String)
    (named : (harvest.addResources jobs.resources).hub.ledger.Named) :
    (harvest.launch jobs newName).Assigned (jobs.listed newName)
      (harvest.addResources jobs.resources).hub.ledger
      ((List.range settings.worker.nodes.toNat).map Hub.nodeName) := by
  constructor
  · constructor
    · exact named
    · exact fun _ => rfl
    · have nodes : (harvest.launch jobs newName).harvest.hub.nodes = _ := fresh.nodes
      rw [nodes, List.map_map]
      rfl
    · have idle : Hub.waiting (harvest.launch jobs newName).harvest.hub.nodes = [] := fresh.idle
      rw [idle]
      exact fun task mem => absurd mem List.not_mem_nil
  · exact fun assigned mem => absurd mem List.not_mem_nil

end MediaHarvest
