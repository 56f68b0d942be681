import MediaHarvest.Proofs.Harvest.Underway

/-!
# The end of a harvest

A harvest that is under way stays so, and comes nearer to its end with every turn; as long as
something is left to do, some part does not wait.  So it comes to its end whatever the order of the
turns is, and then every job is finished and every task was counted.
-/

namespace MediaHarvest

open Ledger

/-! ## Turns -/

namespace Fleet

variable {file added : List Job} {journal : List Entry} {fleet after : Fleet} {settings : Settings}
  {network : Network} {clock : Instant → Prop} {now : Instant}

/-- What has to be there for a turn. -/
inductive Ready (fleet : Fleet) : Move → Prop where
  | add (idle : fleet.handing = none) (some : fleet.upcoming ≠ []) : Ready fleet .add
  | hand (busy : fleet.handing ≠ none) : Ready fleet .hand
  | take {node : Nat} {taker : Node} (there : fleet.harvest.hub.nodes[node]? = some taker)
      (waits : taker.inbox.waiting ≠ []) : Ready fleet (.take node)
  | work {index : Nat} (there : index < fleet.running.length) : Ready fleet (.work index)
  | publish {index : Nat} (there : index < fleet.reports.length) : Ready fleet (.publish index)
  | receive (some : fleet.arriving ≠ []) : Ready fleet .receive
  | record (some : fleet.inbox ≠ []) : Ready fleet .record
  | settle {index : Nat} (there : index < fleet.inFlight.length) : Ready fleet (.settle index)

/-- A part only has a turn if something is there for it. -/
theorem ready_of_perform {move : Move} (done : fleet.perform settings network now move = some after) :
    Ready fleet move := by
  cases move with
  | add =>
      rw [perform, Fleet.add] at done
      split at done
      · next idle upcoming => exact .add idle (by rw [upcoming]; exact List.cons_ne_nil _ _)
      · cases done
  | hand =>
      apply Ready.hand
      intro idle
      rw [perform, Fleet.hand, idle] at done
      cases done
  | take node =>
      rw [perform, Fleet.take, Hub.takeTask] at done
      rcases there : fleet.harvest.hub.nodes[node]? with _ | taker
      · rw [there] at done
        cases done
      · apply Ready.take there
        intro none
        rw [there] at done
        dsimp only at done
        rw [Channel.receive, none] at done
        cases done
  | work index =>
      apply Ready.work
      by_contra outside
      rw [perform, Fleet.work, List.getElem?_eq_none (Nat.not_lt.1 outside)] at done
      cases done
  | publish index =>
      apply Ready.publish
      by_contra outside
      rw [perform, Fleet.publish, List.getElem?_eq_none (Nat.not_lt.1 outside)] at done
      cases done
  | receive =>
      apply Ready.receive
      intro none
      rw [perform, Fleet.receive, none] at done
      cases done
  | record =>
      apply Ready.record
      intro none
      rw [perform, Fleet.record, none] at done
      cases done
  | settle index =>
      apply Ready.settle
      by_contra outside
      rw [perform, Fleet.settle, List.getElem?_eq_none (Nat.not_lt.1 outside)] at done
      cases done

/-- If something is there for a part, it does something, and the harvest advances. -/
theorem Going.perform (going : fleet.Going file added journal) (listing : Job.Listing file)
    (works : fleet.Works settings network clock) (shown : clock now) (plain : now.Plain)
    {move : Move} (ready : Ready fleet move) :
    ∃ after, fleet.perform settings network now move = some after ∧ fleet.Advances file after := by
  cases ready with
  | add idle some => exact going.add listing idle some now
  | hand busy =>
      rcases handing : fleet.handing with _ | ⟨id, job, _ | ⟨index, rest⟩⟩
      · exact absurd handing busy
      · refine ⟨_, ?_, going.expect handing⟩
        rw [Fleet.perform, Fleet.hand, handing]
      · exact going.hand_task handing now
  | @take node taker there waits =>
      rcases waiting : taker.inbox.waiting with _ | ⟨task, rest⟩
      · exact absurd waiting waits
      · exact going.take there waiting
  | work there => exact going.work works shown plain (List.getElem?_eq_getElem there)
  | publish there => exact going.publish (List.getElem?_eq_getElem there)
  | receive some =>
      rcases arriving : fleet.arriving with _ | ⟨message, rest⟩
      · exact absurd arriving some
      · exact going.receive arriving
  | record some =>
      rcases inbox : fleet.inbox with _ | ⟨completion, rest⟩
      · exact absurd inbox some
      · exact going.record inbox now
  | settle there => exact going.settle (List.getElem?_eq_getElem there) now

/-- Every turn advances a harvest. -/
theorem Underway.step (underway : fleet.Underway file) (listing : Job.Listing file)
    (works : fleet.Works settings network clock) (plain : ∀ time, clock time → time.Plain)
    (step : Step settings network clock fleet after) : fleet.Advances file after := by
  rcases underway with ⟨added, journal, going⟩
  rcases step with ⟨move, now, shown, done⟩
  rcases going.perform listing works shown (plain now shown) (ready_of_perform done) with
    ⟨other, same, advances⟩
  rw [done] at same
  cases same
  exact advances

/-- A harvest stays under way. -/
theorem Underway.reaches (underway : fleet.Underway file) (listing : Job.Listing file)
    (works : ∀ middle, Reaches settings network clock fleet middle →
      middle.Works settings network clock)
    (plain : ∀ time, clock time → time.Plain)
    (reaches : Reaches settings network clock fleet after) : after.Underway file := by
  induction reaches with
  | refl => exact underway
  | tail before step ih => exact (ih.step listing (works _ before) plain step).2

/-! ## Room -/

/-- Unless nothing is left to do, something is there for a part that does not wait. -/
theorem done_or_ready {machine : Machine} (room : settings.HasRoom machine) (fleet : Fleet) :
    fleet.Done ∨ ∃ move, fleet.Allows settings move ∧ Ready fleet move := by
  have positive {size : UInt64} (large : 0 < size) : 0 < size.toNat := UInt64.lt_iff_toNat_lt.1 large
  -- what was sent on the longest way comes first, so that there is room for what follows
  by_cases inbox : fleet.inbox = []
  case neg => exact .inr ⟨.record, positive room.statisticsInboxSize, .record inbox⟩
  have recorded : fleet.inbox.length = 0 := List.length_eq_zero_iff.2 inbox
  by_cases inFlight : fleet.inFlight = []
  case neg =>
    right
    refine ⟨.settle 0, ⟨positive room.maxConcurrentEvents, .inl ?_⟩,
      .settle (List.length_pos_iff.2 inFlight)⟩
    omega
  have settled : fleet.inFlight.length = 0 := List.length_eq_zero_iff.2 inFlight
  by_cases arriving : fleet.arriving = []
  case neg =>
    right
    refine ⟨.receive, ⟨?_, ?_⟩, .receive arriving⟩
    · omega
    · omega
  by_cases reports : fleet.reports = []
  case neg =>
    right
    refine ⟨.publish 0, ?_, .publish (List.length_pos_iff.2 reports)⟩
    rw [Allows, arriving]
    exact positive room.eventChannelSize
  by_cases running : fleet.running = []
  case neg =>
    right
    refine ⟨.work 0, ?_, .work (List.length_pos_iff.2 running)⟩
    intro assigned _
    exact positive room.poolSize
  by_cases waiting : ∀ node ∈ fleet.harvest.hub.nodes, node.inbox.waiting = []
  case neg =>
    right
    simp only [not_forall] at waiting
    rcases waiting with ⟨node, mem, waits⟩
    rcases List.getElem?_of_mem mem with ⟨index, there⟩
    refine ⟨.take index, ?_, .take there waits⟩
    intro taker _
    rw [ofNode, running]
    exact Nat.zero_le _
  have open' : ∀ node ∈ fleet.harvest.hub.nodes,
      node.inbox.waiting.length ≤ settings.worker.channelSize.toNat := by
    intro node mem
    rw [waiting node mem]
    exact Nat.zero_le _
  by_cases handing : fleet.handing = none
  case neg => exact .inr ⟨.hand, open', .hand handing⟩
  by_cases upcoming : fleet.upcoming = []
  case neg => exact .inr ⟨.add, open', .add handing upcoming⟩
  exact .inl ⟨upcoming, handing, waiting, running, reports, arriving, inbox, inFlight⟩

end Fleet

/-! ## What comes of a harvest -/

/-- Every job of a file is finished, and every task was counted at each of its stages. -/
structure HarvestSummary.Accomplished (newName : Nat → String) (jobs : JobsFile)
    (summary : HarvestSummary) : Prop where
  /-- The jobs are those of the file, and finished. -/
  finished : ∀ id state, summary.jobs.get? id = some state ↔
    id ∈ jobs.names newName ∧ state = .finished
  unfinished : summary.unfinished = []
  uninterrupted : summary.isInterrupted = false
  dispatched : summary.metrics.tasksDispatched = UInt64.ofNat jobs.taskCount
  received : summary.metrics.eventsReceived = UInt64.ofNat jobs.taskCount
  recorded : summary.metrics.statisticsRecorded = UInt64.ofNat jobs.taskCount
  retrieved : summary.metrics.retrievalsCompleted + summary.metrics.retrievalsFailed +
    summary.metrics.retrievalsAborted = UInt64.ofNat jobs.taskCount
  undecodable : summary.metrics.eventsUndecodable = 0
  ignored : summary.metrics.eventsIgnored = 0
  jobsFinished : summary.metrics.jobsFinished = UInt64.ofNat jobs.busyJobs

/-- What a harvest needs of what earlier ones left behind: a ledger that can be read, and in which
every job stands under its own name, and a backlog that can be opened. -/
structure Holdings.Usable (held : Holdings) : Prop where
  filed : held.ledger.Filed
  readable : held.ledger.Readable
  reopens : ∃ backlog, held.backlog.reopen = .ok backlog

namespace Harvest

/-- The states of jobs that are all finished. -/
theorem jobStates_of_finished (ledger : Ledger) (ids : List String)
    (states : SortedMap String JobState)
    (all : ∀ id ∈ ids, ∃ job, ledger.job? id = .ok (some job) ∧ job.state = .finished) :
    ∃ after, jobStates ledger ids states = .ok after ∧
      ∀ id state, after.get? id = some state ↔
        id ∈ ids ∧ state = .finished ∨ id ∉ ids ∧ states.get? id = some state := by
  induction ids generalizing states with
  | nil => exact ⟨states, rfl, fun id state => by simp⟩
  | cons first rest ih =>
      rcases all first List.mem_cons_self with ⟨job, found, ended⟩
      rcases ih (states.insert first job.state)
        fun id mem => all id (List.mem_cons_of_mem _ mem) with ⟨after, read, shows⟩
      refine ⟨after, ?_, ?_⟩
      · rw [jobStates, found]
        exact read
      · intro id state
        rw [shows, SortedMap.get?_insert, ended, List.mem_cons]
        by_cases own : id = first
        · subst own
          by_cases again : id ∈ rest
          · simp [again]
          · simp [again, @eq_comm _ state]
        · simp [own]

/-- If all jobs are finished, the summary says so. -/
theorem summary_of_finished {harvest : Harvest}
    (all : ∀ id ∈ harvest.jobs, ∃ job, harvest.hub.ledger.job? id = .ok (some job) ∧
      job.state = .finished) :
    ∃ summary, harvest.summary = .ok summary ∧
      (∀ id state, summary.jobs.get? id = some state ↔ id ∈ harvest.jobs ∧ state = .finished) ∧
      summary.unfinished = [] ∧ summary.isInterrupted = false ∧
      summary.metrics = harvest.hub.metrics := by
  rcases jobStates_of_finished harvest.hub.ledger harvest.jobs ∅ all with ⟨states, read, shows⟩
  have finished (id : String) (state : JobState) :
      states.get? id = some state ↔ id ∈ harvest.jobs ∧ state = .finished := by
    rw [shows]
    simp [SortedMap.get?_empty]
  have none : states.entries.filter (fun entry => entry.2 ≠ .finished) = [] := by
    rw [List.filter_eq_nil_iff]
    rintro ⟨id, state⟩ mem
    have ended := ((finished id state).1 (SortedMap.get?_eq_some_iff.2 mem)).2
    simp [ended]
  refine ⟨⟨states, [], false, harvest.hub.metrics⟩, ?_, finished, rfl, rfl, rfl⟩
  rw [summary, read]
  simp only [Except.mapError, ok_bind, pure_eq_ok, none, List.map_nil]

end Harvest

namespace Fleet.Going

variable {jobs : JobsFile} {newName : Nat → String} {added : List Job} {journal : List Entry}
  {fleet : Fleet}

/-- When nothing is left to do, there is a report on every task. -/
theorem reported_of_done (going : fleet.Going (jobs.listed newName) added journal)
    (done : fleet.Done) :
    added = jobs.listed newName ∧
      (reportedTasks journal).Perm (sentTasks journal) ∧
      sentTasks journal = (jobs.listed newName).flatMap Job.subjects := by
  have split : jobs.listed newName = added ++ fleet.upcoming.map JobDefinition.job :=
    going.plans.split
  have order : sentTasks journal ++ unsent fleet.handing = added.flatMap Job.subjects :=
    going.plans.sent
  have nothing : fleet.underway = [] := by
    have waiting : Hub.waiting fleet.harvest.hub.nodes = [] :=
      List.flatMap_eq_nil_iff.2 done.waiting
    rw [underway, waiting, done.running, done.reports, done.arriving, done.inFlight]
    rfl
  have flow := going.flow
  rw [nothing, List.nil_append] at flow
  rw [done.upcoming, List.map_nil, List.append_nil] at split
  rw [done.handing, unsent, Option.elim_none, List.append_nil, ← split] at order
  exact ⟨split.symm, flow, order⟩

/-- When nothing is left to do, every job is finished and every task counted.  Jobs may be looked at
once more, which changes nothing. -/
theorem accomplished (going : fleet.Going (jobs.listed newName) added journal) (done : fleet.Done)
    {left : List String} (known : left ⊆ fleet.harvest.pending) (now : Instant) :
    ∃ summary, (fleet.harvest.lookAgain left now).summary = .ok summary ∧
      summary.Accomplished newName jobs ∧
      (fleet.harvest.lookAgain left now).holdings.Usable := by
  rcases going.reported_of_done done with ⟨rfl, reported, order⟩
  have all : ∀ job ∈ jobs.listed newName, ∀ task ∈ job.taskIds,
      (job.id, task) ∈ reportedTasks journal := by
    intro job mem task planned
    rw [reported.mem_iff, order]
    exact List.mem_flatMap.2 ⟨job, mem, List.mem_map_of_mem planned⟩
  have names : fleet.harvest.jobs = jobs.names newName :=
    going.plans.jobs.trans (JobsFile.map_id_listed newName jobs)
  -- every job was announced as finished, so that a further look ends at once
  have again (left : List String) (known : left ⊆ fleet.harvest.pending) :
      left.foldl (fun hub job => (hub.reconcile job now).1) fleet.harvest.hub =
        fleet.harvest.hub := by
    induction left with
    | nil => rfl
    | cons id rest ih =>
        rcases going.plans.pending id (known List.mem_cons_self) with ⟨job, mem, rfl, planned⟩
        rw [List.foldl_cons, going.serves.reconcile_of_all all mem planned]
        exact ih fun other entry => known (List.mem_cons_of_mem _ entry)
  have finished : ∀ id ∈ fleet.harvest.jobs,
      ∃ job, fleet.harvest.hub.ledger.job? id = .ok (some job) ∧ job.state = .finished := by
    intro id mem
    rw [names, ← JobsFile.map_id_listed, List.mem_map] at mem
    rcases mem with ⟨job, mem, rfl⟩
    exact going.serves.stored_of_all all mem
  rcases Harvest.summary_of_finished finished with
    ⟨summary, gives, states, unfinished, uninterrupted, metrics⟩
  have shows := going.shows
  have total : (reportedTasks journal).length = jobs.taskCount := by
    rw [reported.length_eq, order, JobsFile.length_subjects_listed]
  rw [← reported.length_eq, done.reports, done.arriving, done.inFlight, done.inbox, total]
    at shows
  simp only [List.length_nil, Nat.zero_add] at shows
  rw [Harvest.lookAgain, again left known]
  refine ⟨summary, gives, ?_, ?_⟩
  · constructor
    · rw [← names]
      exact states
    · exact unfinished
    · exact uninterrupted
    · rw [metrics]
      exact shows.dispatched
    · rw [metrics]
      exact shows.received
    · rw [metrics]
      exact (UInt64.add_zero _).symm.trans shows.recorded
    · rw [metrics]
      exact shows.retrievals
    · rw [metrics]
      exact shows.undecodable
    · rw [metrics]
      exact shows.ignored
    · rw [metrics, going.serves.counted, (going.serves.finished_of_all all).length_eq,
        JobsFile.length_busy_listed]
  · exact ⟨going.serves.agree.orderly.filed, going.equipped.readable, going.equipped.reopens⟩

end Fleet.Going

/-! ## The start -/

/-- A backlog that was opened can be opened again. -/
theorem Backlog.reopen_of_opened {backlog opened : Backlog} (done : backlog.reopen = .ok opened) :
    opened.reopen = .ok opened := by
  rw [reopen] at done ⊢
  rcases noted : backlog.notes.get? nextNote with _ | bytes
  · rw [noted] at done
    cases done
    dsimp only
    rw [noted]
    rfl
  · rw [noted] at done
    dsimp only at done
    rcases bind_eq_ok_iff.1 done with ⟨number, read, same⟩
    cases same
    dsimp only
    rw [noted]
    dsimp only
    rw [read]
    rfl

theorem Ledger.jobs_putResources (resources : List Resource) (ledger : Ledger) :
    (resources.foldl (fun ledger resource => ledger.putResource resource) ledger).jobs =
      ledger.jobs := by
  induction resources generalizing ledger with
  | nil => rfl
  | cons resource rest ih => exact ih (ledger.putResource resource)

namespace Harvest

variable {settings : Settings} {held : Holdings} {now : Instant}

/-- A harvest at its start: nothing was added, handed out or counted. -/
structure Fresh (settings : Settings) (harvest : Harvest) : Prop where
  accountant : harvest.hub.accountant = .empty
  announced : harvest.hub.announced = []
  metrics : harvest.hub.metrics = .zero
  nodes : harvest.hub.nodes = (List.range settings.worker.nodes.toNat).map
    fun index => ⟨Hub.nodeName index, .new⟩
  jobs : harvest.jobs = []
  pending : harvest.pending = []
  usable : harvest.holdings.Usable

theorem holdsHub_of_hasRoom {machine : Machine} (room : settings.HasRoom machine) :
    holdsHub machine settings.master = true := by
  have counted := room.counted
  simp only [List.mem_cons, List.not_mem_nil, or_false, forall_eq_or_imp, forall_eq] at counted
  simp [holdsHub, isInboxSize, room.eventChannelSize, room.statisticsInboxSize, room.keepsRing,
    counted]

theorem holdsNode_of_hasRoom {machine : Machine} (room : settings.HasRoom machine) :
    holdsNode settings.worker = true := by
  have counted := room.counted
  simp only [List.mem_cons, List.not_mem_nil, or_false, forall_eq_or_imp, forall_eq] at counted
  simp [holdsNode, isInboxSize, room.channelSize, counted]

/-- A harvest starts where earlier ones left usable holdings, if there is room for its parts, the
retention stays within the calendar and the name of who asks can be sent. -/
theorem start_of_usable {machine : Machine} {settings : Settings} (room : settings.HasRoom machine)
    (usable : held.Usable) (now : Instant) (agent : settings.worker.policy.isUsable = true)
    (retention : (now.daysBefore? settings.retention.days.toNat).isSome = true) :
    ∃ harvest, (start machine settings held now).2 = .ok harvest ∧ harvest.Fresh settings ∧
      harvest.hub.ledger.resources = held.ledger.resources := by
  rcases Option.isSome_iff_exists.1 retention with ⟨cutoff, counted⟩
  rcases usable.reopens with ⟨backlog, opens⟩
  rcases cleaned : held.ledger.prune settings.retention.days now with error | ⟨ledger, pruned⟩
  · rw [Ledger.prune, counted] at cleaned
    cases cleaned
  have kept := kept_of_prune cleaned
  have filed := usable.filed.of_jobs_eq kept.1
  have readable := usable.readable.prune cleaned
  rw [start, cleaned]
  dsimp only
  rw [opens]
  dsimp only
  rw [holdsHub_of_hasRoom room, room.listsNodes, if_neg (by simp), agent, if_neg (by simp),
    holdsNode_of_hasRoom room, if_neg (by simp)]
  refine ⟨_, rfl, ⟨rfl, rfl, rfl, rfl, rfl, rfl, ?_⟩, kept.2⟩
  exact ⟨filed, readable, _, Backlog.reopen_of_opened opens⟩

theorem Fresh.staffed {harvest : Harvest} (fresh : harvest.Fresh settings)
    (nodes : 0 < settings.worker.nodes) : Hub.Staffed harvest.hub where
  some := by
    have positive : 0 < settings.worker.nodes.toNat := UInt64.lt_iff_toNat_lt.1 nodes
    rw [fresh.nodes]
    apply List.ne_nil_of_length_pos
    rw [List.length_map, List.length_range]
    exact positive
  healthy := by
    rw [Hub.isHealthy, fresh.nodes, List.all_map, List.all_eq_true]
    exact fun _ _ => rfl

/-- Nothing waits for a node. -/
theorem Fresh.idle {harvest : Harvest} (fresh : harvest.Fresh settings) :
    Hub.waiting harvest.hub.nodes = [] := by
  rw [Hub.waiting, List.flatMap_eq_nil_iff, fresh.nodes]
  intro node mem
  rcases List.mem_map.1 mem with ⟨index, _, rfl⟩
  rfl

/-- After its start a harvest of the jobs of a file is under way. -/
theorem Fresh.underway {harvest : Harvest} (fresh : harvest.Fresh settings)
    (nodes : 0 < settings.worker.nodes) (jobs : JobsFile) (newName : Nat → String) :
    (harvest.launch jobs newName).Underway (jobs.listed newName) := by
  have filed : ((harvest.addResources jobs.resources).hub.ledger).Filed :=
    fresh.usable.filed.of_jobs_eq (Ledger.jobs_putResources ..)
  have readable : ((harvest.addResources jobs.resources).hub.ledger).Readable :=
    Readable.putResources _ _ fresh.usable.readable
  have pending : (harvest.launch jobs newName).desk.pending = [] := fresh.pending
  have metrics : (harvest.launch jobs newName).harvest.hub.metrics = .zero := fresh.metrics
  refine ⟨[], [], ?_⟩
  constructor
  · constructor
    · rfl
    · exact fresh.jobs
    · rfl
    · rintro _ ⟨⟩
    · rw [pending]
      exact fun id mem => absurd mem List.not_mem_nil
  · exact Hub.serves_nil fresh.accountant filed fresh.announced
      (congrArg Metrics.jobsFinished fresh.metrics)
  · exact ⟨(fresh.staffed nodes).of_nodes rfl, readable, fresh.usable.reopens⟩
  · have nothing : (harvest.launch jobs newName).underway = [] :=
      congrArg (fun waiting => waiting.map Task.subject ++ [] ++ [] ++ [] ++ []) fresh.idle
    rw [nothing]
    exact .refl _
  · constructor
    · exact fun report mem => absurd mem List.not_mem_nil
    · exact fun report mem => absurd mem List.not_mem_nil
    · exact fun message mem => absurd mem List.not_mem_nil
    · exact fun completion mem => absurd mem List.not_mem_nil
  · rw [metrics]
    exact ⟨rfl, rfl, rfl, rfl, rfl, rfl⟩

end Harvest

end MediaHarvest
