import MediaHarvest.Proofs.Harvest.Accomplished

/-!
# The parts one after another

A harvest that runs its parts one after another takes one of the orders in which they can have their
turns: it adds and hands out all jobs, lets the nodes take all tasks, and deals with each of them up
to its end.
-/

namespace MediaHarvest

open Ledger

/-! ## Adding jobs -/

namespace Harvest

/-- The harvest after the tasks of a job were handed out as far as that went. -/
def handedOut (harvest : Harvest) (id : String) :
    Hub × Except DispatchError Nat → Harvest
  | (hub, .error _) => harvest.setHub hub
  | (hub, .ok _) => (harvest.setHub hub).expect id

theorem addJob_eq (job : Job) (now : Instant) (harvest : Harvest) :
    harvest.addJob job now =
      if job.tasks = [] then (harvest.noteJob job).finishEmpty job now
      else .ok ((harvest.noteJob job).handedOut job.id
        ((harvest.noteJob job).hub.dispatchJob job.id now)) := by
  rw [addJob]
  split
  · rfl
  · dsimp only [noteJob]
    split
    · next same => rw [same]; rfl
    · next same => rw [same]; rfl

end Harvest

namespace Fleet

variable {settings : Settings} {network : Network} {clock : Instant → Prop} {now : Instant}
  {fleet after : Fleet}

/-- What a part does is a step. -/
theorem reaches_perform (shown : clock now) (move : Move)
    (done : fleet.perform settings network now move = some after) :
    Reaches settings network clock fleet after :=
  .single ⟨move, now, shown, done⟩

/-- The tasks of a job are handed out one after another. -/
theorem reaches_dispatchTasks (shown : clock now) (id : String) (job : Job) (left : List Nat)
    (sent : Nat) (fleet : Fleet) (busy : fleet.handing = some ⟨id, job, left⟩) :
    Reaches settings network clock fleet
      { fleet with
        harvest := fleet.harvest.handedOut id
          (Hub.dispatchTasks job id now left sent fleet.harvest.hub)
        handing := none } := by
  induction left generalizing sent fleet with
  | nil =>
      apply reaches_perform shown .hand
      rw [perform, hand, busy]
      rfl
  | cons index rest ih =>
      have turn : ∀ after, fleet.hand now = some after →
          Reaches settings network clock fleet after :=
        fun after done => reaches_perform shown .hand done
      rw [hand, busy] at turn
      rw [Hub.dispatchTasks]
      dsimp only at turn
      rcases built : fleet.harvest.hub.buildTask job index with error | task
      · rw [built] at turn
        exact turn _ rfl
      · rw [built] at turn
        dsimp only at turn ⊢
        rcases dispatched : fleet.harvest.hub.dispatch id task now with
          ⟨hub, error | _ | _ | state⟩
        · rw [dispatched] at turn
          exact turn _ rfl
        · rw [dispatched] at turn
          exact (turn _ rfl).trans (ih (sent + 1) _ rfl)
        · rw [dispatched] at turn
          exact (turn _ rfl).trans (ih sent _ rfl)
        · rw [dispatched] at turn
          exact turn _ rfl

/-- Adding a job comes to turns. -/
theorem reaches_addJob (shown : clock now) {name : String} {definition : JobDefinition}
    {rest : List (String × JobDefinition)} {harvest : Harvest} (idle : fleet.handing = none)
    (next : fleet.upcoming = (name, definition) :: rest)
    (done : fleet.harvest.addJob (definition.toJob name now) now = .ok harvest) :
    Reaches settings network clock fleet { fleet with harvest := harvest, upcoming := rest } := by
  have turn : ∀ after, fleet.add now = some after → Reaches settings network clock fleet after :=
    fun after done => reaches_perform shown .add done
  rcases fleet with ⟨before, upcoming, handing, running, reports, arriving, inbox, inFlight⟩
  dsimp only at idle next done
  subst idle next
  rw [Harvest.addJob_eq] at done
  rw [Fleet.add] at turn
  dsimp only at turn ⊢
  by_cases empty : (definition.toJob name now).tasks = []
  · rw [if_pos empty] at done turn
    rw [done] at turn
    exact turn _ rfl
  · rw [if_neg empty] at done turn
    cases done
    rw [Hub.dispatchJob]
    rcases found : (before.noteJob (definition.toJob name now)).hub.findJob
      (definition.toJob name now).id with error | stored
    · rw [found] at turn
      exact turn _ rfl
    · rw [found] at turn
      exact (turn _ rfl).trans (reaches_dispatchTasks shown _ stored _ 0 _ rfl)

/-- A job can be added to a harvest that is under way. -/
theorem Underway.addJob {file : List Job} (underway : fleet.Underway file)
    (listing : Job.Listing file) {name : String} {definition : JobDefinition}
    {rest : List (String × JobDefinition)} (idle : fleet.handing = none)
    (next : fleet.upcoming = (name, definition) :: rest) (now : Instant) :
    ∃ harvest, fleet.harvest.addJob (definition.toJob name now) now = .ok harvest := by
  rcases underway with ⟨added, journal, going⟩
  rcases going.add listing idle (next ▸ List.cons_ne_nil _ _) now with ⟨after, done, _⟩
  rw [Harvest.addJob_eq]
  rw [Fleet.add, idle, next] at done
  dsimp only at done
  split at done
  · next empty =>
    rw [if_pos empty]
    rcases finished : (fleet.harvest.noteJob (definition.toJob name now)).finishEmpty
      (definition.toJob name now) now with error | harvest
    · rw [finished] at done
      cases done
    · exact ⟨harvest, rfl⟩
  · next some =>
    rw [if_neg some]
    exact ⟨_, rfl⟩

/-- Adding all jobs comes to turns. -/
theorem reaches_addJobs {file : List Job} (shown : clock now) (listing : Job.Listing file)
    (plain : ∀ time, clock time → time.Plain) (newName : Nat → String)
    (definitions : List JobDefinition) (index : Nat) (fleet : Fleet)
    (underway : fleet.Underway file)
    (works : ∀ middle, Reaches settings network clock fleet middle →
      middle.Works settings network clock)
    (idle : fleet.handing = none)
    (next : fleet.upcoming =
      (definitions.zipIdx index).map fun entry => (newName entry.2, entry.1)) :
    ∃ harvest, Harvest.addJobs newName now definitions index fleet.harvest = .ok harvest ∧
      Reaches settings network clock fleet { fleet with harvest := harvest, upcoming := [] } := by
  induction definitions generalizing index fleet with
  | nil =>
      refine ⟨fleet.harvest, rfl, ?_⟩
      rcases fleet with ⟨harvest, upcoming, handing, running, reports, arriving, inbox, inFlight⟩
      dsimp only at next
      subst next
      exact .refl
  | cons definition rest ih =>
      rw [List.zipIdx_cons, List.map_cons] at next
      rcases underway.addJob listing idle next now with ⟨harvest, done⟩
      have first : Reaches settings network clock fleet { fleet with
          harvest := harvest
          upcoming := (rest.zipIdx (index + 1)).map fun entry => (newName entry.2, entry.1) } :=
        reaches_addJob shown idle next done
      rcases ih (index + 1) _ (underway.reaches listing works plain first)
        (fun middle others => works middle (first.trans others)) idle rfl with
        ⟨last, added, others⟩
      refine ⟨last, ?_, first.trans others⟩
      rw [Harvest.addJobs, done]
      exact added

/-! ## Taking all tasks -/

/-- The tasks that wait for nodes, each after the name of its node. -/
def assignedTasks (nodes : List Node) : List (String × Task) :=
  nodes.flatMap fun node => node.inbox.waiting.map fun task => (node.id, task)

/-- Where nothing waits, there is nothing to be emptied. -/
theorem emptied_of_idle {hub : Hub} (staffed : Hub.Staffed hub)
    (idle : ∀ node ∈ hub.nodes, node.inbox.waiting = []) : Harvest.emptied hub = hub := by
  have same : hub.nodes.map (fun node => { node with inbox := .new }) = hub.nodes := by
    apply Eq.trans _ (List.map_id _)
    apply List.map_congr_left
    rintro ⟨id, isOpen, waiting⟩ mem
    have isOpen : isOpen = true := List.all_eq_true.1 staffed.healthy _ mem
    have none : waiting = [] := idle _ mem
    rw [isOpen, none]
    rfl
  rw [Harvest.emptied, same]

/-- The fleet after a node took the oldest task that waits for it. -/
def took (fleet : Fleet) (index : Nat) (node : Node) (task : Task) (rest : List Task) : Fleet :=
  { fleet.setHub { fleet.harvest.hub with
      nodes := fleet.harvest.hub.nodes.set index (Hub.withWaiting node rest) } with
    running := fleet.running ++ [(node.id, task)] }

/-- What one node took makes no difference once all of them are emptied. -/
theorem emptied_took (fleet : Fleet) {index : Nat} {node : Node} {task : Task} {rest : List Task}
    (there : fleet.harvest.hub.nodes[index]? = some node) :
    Harvest.emptied (fleet.took index node task rest).harvest.hub =
      Harvest.emptied fleet.harvest.hub := by
  have same : (fleet.took index node task rest).harvest.hub.nodes.map
      (fun node => { node with inbox := .new }) =
      fleet.harvest.hub.nodes.map fun node => { node with inbox := .new } :=
    Hub.map_set _ there rfl
  rw [Harvest.emptied, same]
  rfl

/-- The nodes take all tasks. -/
theorem reaches_takes (settings : Settings) (network : Network) (shown : clock now) (count : Nat)
    (fleet : Fleet) (staffed : Hub.Staffed fleet.harvest.hub)
    (size : (Hub.waiting fleet.harvest.hub.nodes).length = count) :
    ∃ running, Reaches settings network clock fleet
        { fleet with
          harvest := fleet.harvest.setHub (Harvest.emptied fleet.harvest.hub)
          running := running } ∧
      running.Perm (fleet.running ++ assignedTasks fleet.harvest.hub.nodes) := by
  -- on the number of tasks that wait, as any node may be the next one to take one
  induction count generalizing fleet with
  | zero =>
      have idle : ∀ node ∈ fleet.harvest.hub.nodes, node.inbox.waiting = [] :=
        List.flatMap_eq_nil_iff.1 (List.length_eq_zero_iff.1 size)
      have none : assignedTasks fleet.harvest.hub.nodes = [] := by
        rw [assignedTasks, List.flatMap_eq_nil_iff]
        intro node mem
        rw [idle node mem]
        rfl
      refine ⟨fleet.running, ?_, ?_⟩
      · rw [emptied_of_idle staffed idle]
        exact .refl
      · rw [none, List.append_nil]
  | succ count ih =>
      have some : ∃ node ∈ fleet.harvest.hub.nodes, node.inbox.waiting ≠ [] := by
        by_contra idle
        simp only [not_exists, not_and, not_not] at idle
        have none : Hub.waiting fleet.harvest.hub.nodes = [] := List.flatMap_eq_nil_iff.2 idle
        rw [none] at size
        cases size
      rcases some with ⟨node, mem, waits⟩
      rcases List.getElem?_of_mem mem with ⟨index, there⟩
      rcases waiting : node.inbox.waiting with _ | ⟨task, rest⟩
      · exact absurd waiting waits
      have taken := Hub.takeTask_of_waiting there waiting
      have left : (Hub.waiting fleet.harvest.hub.nodes).Perm (task ::
          Hub.waiting (fleet.harvest.hub.nodes.set index (Hub.withWaiting node rest))) :=
        Hub.flatMap_taken there waiting
      have fewer : (Hub.waiting
          (fleet.harvest.hub.nodes.set index (Hub.withWaiting node rest))).length = count := by
        rw [left.length_eq, List.length_cons] at size
        exact Nat.succ.inj size
      have first : fleet.take index = .some (fleet.took index node task rest) := by
        rw [take, there, taken]
        rfl
      rcases ih (fleet.took index node task rest) (staffed.taken there rfl) fewer with
        ⟨running, others, perm⟩
      refine ⟨running, ?_, ?_⟩
      · rw [emptied_took fleet there] at others
        exact (reaches_perform shown (.take index) first).trans others
      · have assigned : (assignedTasks fleet.harvest.hub.nodes).Perm ((node.id, task) ::
            assignedTasks (fleet.took index node task rest).harvest.hub.nodes) := by
          apply Hub.flatMap_taken there
          rw [waiting]
          rfl
        have moved : (fleet.took index node task rest).running =
            fleet.running ++ [(node.id, task)] := rfl
        rw [moved, List.append_assoc] at perm
        exact perm.trans (assigned.symm.append_left _)

/-! ## Carrying out all tasks -/

/-- Nothing is on its way to the hub. -/
structure Quiet (fleet : Fleet) : Prop where
  reports : fleet.reports = []
  arriving : fleet.arriving = []
  inbox : fleet.inbox = []
  inFlight : fleet.inFlight = []

/-- A message that is the only one is taken in. -/
theorem reaches_takeMessage (shown : clock now) (message : Bytes) (fleet : Fleet)
    (quiet : fleet.Quiet) :
    Reaches settings network clock { fleet with arriving := [message] }
      (fleet.setHub (fleet.harvest.hub.takeMessage message now)) := by
  rcases fleet with ⟨harvest, upcoming, handing, running, reports, arriving, inbox, inFlight⟩
  rcases quiet with ⟨noReports, noMessage, noRecord, none⟩
  dsimp only at noReports noMessage noRecord none
  subst noReports noMessage noRecord none
  have received (after : Fleet) (done : Fleet.receive ⟨harvest, upcoming, handing, running, [],
      [message], [], []⟩ = some after) : Reaches settings network clock
        ⟨harvest, upcoming, handing, running, [], [message], [], []⟩ after :=
    reaches_perform shown .receive done
  rw [Fleet.receive] at received
  rw [Hub.takeMessage]
  dsimp only at received ⊢
  rcases read : Wire.decodeCompletion message with error | completion
  · rw [read] at received
    exact received _ rfl
  · rw [read] at received
    have recorded := (received _ rfl).trans (reaches_perform shown .record rfl)
    exact recorded.trans (reaches_perform shown (.settle 0) rfl)

/-- A node carries out a task, and the report is taken in at once. -/
theorem reaches_work (shown : clock now) (quiet : fleet.Quiet) {index : Nat}
    {assigned : String × Task} (there : fleet.running[index]? = some assigned) {after : Harvest}
    {report : Completion}
    (carried : fleet.harvest.carryOut settings network now assigned = (after, .ok report)) :
    Reaches settings network clock fleet { fleet with
      harvest := after.takeIn now report
      running := fleet.running.eraseIdx index } := by
  rcases fleet with ⟨harvest, upcoming, handing, running, reports, arriving, inbox, inFlight⟩
  rcases quiet with ⟨noReports, noMessage, noRecord, none⟩
  dsimp only at noReports noMessage noRecord none there carried
  subst noReports noMessage noRecord none
  have worked : Reaches settings network clock
      ⟨harvest, upcoming, handing, running, [], [], [], []⟩
      ⟨after, upcoming, handing, running.eraseIdx index, [report], [], [], []⟩ := by
    apply reaches_perform shown (.work index)
    rw [perform, work, there]
    dsimp only
    rw [carried]
    rfl
  have published : Reaches settings network clock
      ⟨after, upcoming, handing, running.eraseIdx index, [report], [], [], []⟩
      ⟨after, upcoming, handing, running.eraseIdx index, [], [Wire.encodeCompletion report], [],
        []⟩ :=
    reaches_perform shown (.publish 0) rfl
  have taken : Reaches settings network clock _ _ :=
    reaches_takeMessage shown (Wire.encodeCompletion report)
      ⟨after, upcoming, handing, running.eraseIdx index, [], [], [], []⟩ ⟨rfl, rfl, rfl, rfl⟩
  exact (worked.trans published).trans taken

/-- Tasks that were taken are carried out in any order, one after another. -/
theorem reaches_works (shown : clock now) (tasks : List (String × Task)) (fleet : Fleet)
    (quiet : fleet.Quiet) (same : tasks.Perm fleet.running)
    (works : ∀ middle, Reaches settings network clock fleet middle →
      middle.Works settings network clock) :
    ∃ ended, Harvest.work settings network now tasks fleet.harvest = (ended, none) ∧
      Reaches settings network clock fleet { fleet with harvest := ended, running := [] } := by
  -- on the tasks in the order in which they are carried out, not in that in which they were taken
  induction tasks generalizing fleet with
  | nil =>
      rcases fleet with ⟨harvest, upcoming, handing, running, reports, arriving, inbox, inFlight⟩
      have none : running = [] := List.Perm.nil_eq same |>.symm
      subst none
      exact ⟨harvest, rfl, .refl⟩
  | cons assigned rest ih =>
      have mem : assigned ∈ fleet.running := same.subset List.mem_cons_self
      rcases List.getElem?_of_mem mem with ⟨index, there⟩
      have left : rest.Perm (fleet.running.eraseIdx index) :=
        (same.trans (Hub.perm_eraseIdx there).symm).cons_inv
      rcases (works fleet .refl).reports mem now with ⟨after, report, carried⟩
      have first : Reaches settings network clock fleet { fleet with
          harvest := after.takeIn now report
          running := fleet.running.eraseIdx index } :=
        reaches_work shown quiet there carried
      have still : Quiet { fleet with
          harvest := after.takeIn now report
          running := fleet.running.eraseIdx index } :=
        ⟨quiet.reports, quiet.arriving, quiet.inbox, quiet.inFlight⟩
      rcases ih _ still left (fun middle others => works middle (first.trans others)) with
        ⟨ended, worked, others⟩
      refine ⟨ended, ?_, first.trans others⟩
      rw [Harvest.work, carried]
      exact worked

end Fleet

/-! ## Taking turns -/

namespace Harvest

variable {α : Type}

/-- The first values of lists and then what is left is all that they hold. -/
theorem heads_append_tails (lists : List (List α)) :
    (lists.filterMap List.head? ++ (lists.map List.tail).flatten).Perm lists.flatten := by
  induction lists with
  | nil => exact .refl _
  | cons list rest ih =>
      cases list with
      | nil => exact ih
      | cons first others =>
          simp only [List.filterMap_cons, List.head?_cons, List.map_cons, List.tail_cons,
            List.flatten_cons, List.cons_append]
          apply List.Perm.cons
          apply List.Perm.trans _ (ih.append_left others)
          rw [← List.append_assoc, ← List.append_assoc]
          exact List.Perm.append_right _ List.perm_append_comm

/-- After as many rounds as the longest list is long, every value had its turn. -/
theorem rounds_perm (count : Nat) (lists : List (List α))
    (enough : ∀ list ∈ lists, list.length ≤ count) :
    (interleave.rounds count lists).Perm lists.flatten := by
  induction count generalizing lists with
  | zero =>
      have none : lists.flatten = [] := by
        rw [List.flatten_eq_nil_iff]
        intro list mem
        exact List.length_eq_zero_iff.1 (Nat.le_zero.1 (enough list mem))
      rw [none, interleave.rounds]
  | succ count ih =>
      rw [interleave.rounds]
      apply List.Perm.trans _ (heads_append_tails lists)
      apply List.Perm.append_left
      apply ih
      intro list mem
      rcases List.mem_map.1 mem with ⟨whole, known, rfl⟩
      have size := enough whole known
      rw [List.length_tail]
      omega

theorem length_le_longest (lists : List (List α)) (start : Nat) :
    start ≤ lists.foldl (fun longest list => max longest list.length) start ∧
      ∀ list ∈ lists,
        list.length ≤ lists.foldl (fun longest list => max longest list.length) start := by
  induction lists generalizing start with
  | nil => exact ⟨Nat.le_refl _, fun list mem => absurd mem List.not_mem_nil⟩
  | cons first rest ih =>
      rcases ih (max start first.length) with ⟨least, others⟩
      rw [List.foldl_cons]
      refine ⟨(Nat.le_max_left ..).trans least, List.forall_mem_cons.2 ⟨?_, others⟩⟩
      exact (Nat.le_max_right ..).trans least

/-- Values of several lists in turn are all their values. -/
theorem interleave_perm (lists : List (List α)) : (interleave lists).Perm lists.flatten :=
  rounds_perm _ lists (length_le_longest lists 0).2

/-- Every task that waits has its turn. -/
theorem waitingTasks_perm (hub : Hub) : (waitingTasks hub).Perm (Fleet.assignedTasks hub.nodes) := by
  apply (interleave_perm _).trans
  rw [Fleet.assignedTasks, List.flatMap_def]

end Harvest

namespace Fleet

variable {settings : Settings} {network : Network} {clock : Instant → Prop} {now : Instant}

/-- Nodes that take all tasks and carry them out one after another. -/
theorem reaches_workAll (shown : clock now) (fleet : Fleet) (quiet : fleet.Quiet)
    (idle : fleet.running = []) (staffed : Hub.Staffed fleet.harvest.hub)
    (works : ∀ middle, Reaches settings network clock fleet middle →
      middle.Works settings network clock) :
    ∃ ended, fleet.harvest.workAll settings network now = (ended, none) ∧
      Reaches settings network clock fleet { fleet with harvest := ended } := by
  rcases reaches_takes settings network shown _ fleet staffed rfl with ⟨running, takes, perm⟩
  rw [idle, List.nil_append] at perm
  rcases reaches_works shown (Harvest.waitingTasks fleet.harvest.hub)
    { fleet with
      harvest := fleet.harvest.setHub (Harvest.emptied fleet.harvest.hub)
      running := running }
    ⟨quiet.reports, quiet.arriving, quiet.inbox, quiet.inFlight⟩
    ((Harvest.waitingTasks_perm _).trans perm.symm)
    (fun middle others => works middle (takes.trans others)) with ⟨ended, worked, others⟩
  rcases fleet with ⟨harvest, upcoming, handing, nothing, reports, arriving, inbox, inFlight⟩
  dsimp only at idle
  subst idle
  exact ⟨ended, worked, takes.trans others⟩

end Fleet

/-! ## A harvest as it runs -/

namespace Harvest

variable {settings : Settings} {network : Network} {now : Instant}

/-- Taking in a message does not touch the inboxes of the nodes. -/
theorem nodes_takeMessage (hub : Hub) (message : Bytes) (now : Instant) :
    (hub.takeMessage message now).nodes = hub.nodes := by
  rw [Hub.takeMessage]
  split
  · rfl
  · rw [Hub.takeReport, (Hub.undisturbed_onCompletion ..).nodes, Hub.record_eq]
    rfl

/-- Carrying out tasks does not touch the inboxes of the nodes either. -/
theorem nodes_work (tasks : List (String × Task)) (harvest : Harvest) :
    (work settings network now tasks harvest).1.hub.nodes = harvest.hub.nodes := by
  induction tasks generalizing harvest with
  | nil => rfl
  | cons assigned rest ih =>
      have kept : (harvest.carryOut settings network now assigned).1.hub.nodes =
          harvest.hub.nodes := rfl
      rw [work]
      split
      · next carried =>
        rw [carried] at kept
        exact ((ih _).trans (nodes_takeMessage ..)).trans kept
      · next carried =>
        rw [carried] at kept
        exact kept
      · next carried =>
        rw [carried] at kept
        exact (ih _).trans kept

/-- When all tasks were carried out, no task waits. -/
theorem idle_workAll (harvest : Harvest) :
    ∀ node ∈ (harvest.workAll settings network now).1.hub.nodes, node.inbox.waiting = [] := by
  intro node mem
  rw [workAll, nodes_work] at mem
  rcases List.mem_map.1 mem with ⟨before, _, rfl⟩
  rfl

/-- A harvest that adds all jobs and then carries out all tasks has nothing left to do. -/
theorem reaches_run {clock : Instant → Prop} {harvest : Harvest} {jobs : JobsFile}
    {newName : Nat → String} (shown : clock now) (plain : ∀ time, clock time → time.Plain)
    (listing : Job.Listing (jobs.listed newName))
    (underway : (harvest.launch jobs newName).Underway (jobs.listed newName))
    (works : ∀ middle, Fleet.Reaches settings network clock (harvest.launch jobs newName) middle →
      middle.Works settings network clock) :
    ∃ added, addJobs newName now jobs.jobs 0 (harvest.addResources jobs.resources) = .ok added ∧
      ∃ ended, Fleet.Reaches settings network clock (harvest.launch jobs newName) ended ∧
        added.workAll settings network now = (ended.harvest, none) ∧ ended.Done := by
  rcases Fleet.reaches_addJobs shown listing plain newName jobs.jobs 0 _ underway works rfl rfl with
    ⟨added, done, adds⟩
  rcases underway.reaches listing works plain adds with ⟨_, _, going⟩
  rcases Fleet.reaches_workAll shown
    { harvest.launch jobs newName with harvest := added, upcoming := [] } ⟨rfl, rfl, rfl, rfl⟩ rfl
    going.equipped.staffed (fun middle others => works middle (adds.trans others)) with
    ⟨ended, worked, carries⟩
  have idle : ∀ node ∈ ended.hub.nodes, node.inbox.waiting = [] := by
    have idle : ∀ node ∈ (added.workAll settings network now).1.hub.nodes,
        node.inbox.waiting = [] := idle_workAll added
    rw [worked] at idle
    exact idle
  exact ⟨added, done, _, adds.trans carries, worked, rfl, rfl, idle, rfl, rfl, rfl, rfl, rfl⟩

end Harvest

end MediaHarvest
