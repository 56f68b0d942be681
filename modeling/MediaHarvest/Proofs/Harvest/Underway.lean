import MediaHarvest.Proofs.Harvest.Parts

/-!
# What is kept while a harvest is under way

Every task of the jobs that were added is somewhere: it is still to be handed out, waits for a node,
is being carried out, is reported on and on its way to the hub, or was reported on.  `Going` says so
in terms of the journal of the hub, and says what the counters show meanwhile.  Every turn of a part
keeps it, and brings the harvest nearer to its end.
-/

namespace MediaHarvest

open Ledger

namespace Fleet

/-- The tasks that were handed out and are not dealt with. -/
def underway (fleet : Fleet) : List (String × String) :=
  (Hub.waiting fleet.harvest.hub.nodes).map Task.subject ++
    fleet.running.map (fun assigned => assigned.2.subject) ++
    fleet.reports.map Completion.subject ++
    (Wire.reports fleet.arriving).map Completion.subject ++
    fleet.inFlight.map Completion.subject

/-- How many turns are left at most. -/
def todo (fleet : Fleet) : Nat :=
  (fleet.upcoming.map fun entry => 2 + 7 * entry.2.tasks.length).sum +
    fleet.handing.elim 0 (fun handout => 1 + 7 * handout.left.length) +
    6 * (Hub.waiting fleet.harvest.hub.nodes).length + 5 * fleet.running.length +
    4 * fleet.reports.length + 3 * fleet.arriving.length + fleet.inbox.length +
    fleet.inFlight.length

end Fleet

/-- A harvest of the jobs of a file is under way.  The jobs in `added` were added, and the journal
tells what the hub did. -/
structure Fleet.Going (file added : List Job) (journal : List Entry) (fleet : Fleet) : Prop where
  plans : fleet.desk.Plans file added (sentTasks journal)
  serves : Hub.Serves added fleet.harvest.hub journal
  equipped : fleet.harvest.hub.Equipped
  /-- Every task that was handed out is somewhere, and only once. -/
  flow : (fleet.underway ++ reportedTasks journal).Perm (sentTasks journal)
  mailed : Mailed (sentTasks journal) fleet.reports fleet.arriving fleet.inbox
  shows : fleet.harvest.hub.metrics.Shows (sentTasks journal).length
    (fleet.reports.length + fleet.arriving.length +
      (fleet.inFlight.length + (reportedTasks journal).length))
    (fleet.inFlight.length + (reportedTasks journal).length) fleet.inbox.length

/-- A harvest of the jobs of a file is under way. -/
def Fleet.Underway (file : List Job) (fleet : Fleet) : Prop :=
  ∃ added journal, fleet.Going file added journal

/-- A turn brings a harvest nearer to its end, and keeps it under way. -/
def Fleet.Advances (file : List Job) (fleet after : Fleet) : Prop :=
  after.todo < fleet.todo ∧ after.Underway file

/-- What a node leaves of a harvest when it reports on a task. -/
theorem Harvest.of_carryOut {settings : Settings} {network : Network} {harvest after : Harvest}
    {assigned : String × Task} {report : Completion} {now : Instant}
    (made : harvest.carryOut settings network now assigned = (after, .ok report)) :
    ∃ trace, (Harvest.nodeSetup settings network assigned.1).run assigned.2
        ⟨harvest.files, harvest.requests, harvest.hub.metrics⟩ now = (trace, .ok report) ∧
      after = { harvest with
        hub := { harvest.hub with metrics := trace.metrics }
        files := trace.files
        requests := trace.requests } := by
  rw [Harvest.carryOut] at made
  dsimp only at made
  rcases ran : (Harvest.nodeSetup settings network assigned.1).run assigned.2
    ⟨harvest.files, harvest.requests, harvest.hub.metrics⟩ now with ⟨trace, result⟩
  rw [ran] at made
  cases made
  exact ⟨trace, rfl, rfl⟩

/-- A task that can be carried out is reported on. -/
theorem Fleet.Works.reports {fleet : Fleet} {settings : Settings} {network : Network}
    {clock : Instant → Prop} (works : fleet.Works settings network clock) {assigned : String × Task}
    (mem : assigned ∈ fleet.running) (now : Instant) :
    ∃ after report, fleet.harvest.carryOut settings network now assigned = (after, .ok report) := by
  rcases NodeSetup.returns_run (works.ends assigned mem) (.inr rfl)
    ⟨fleet.harvest.files, fleet.harvest.requests, fleet.harvest.hub.metrics⟩ now with
    ⟨trace, report, made⟩
  rw [Harvest.carryOut]
  dsimp only
  rw [made]
  exact ⟨_, report, rfl⟩

namespace Fleet.Going

variable {file added : List Job} {journal : List Entry} {fleet : Fleet} {now : Instant}

/-! ## Adding a job -/

/-- The next job was written down, and its tasks are to be handed out. -/
theorem enter (going : fleet.Going file added journal) (listing : Job.Listing file)
    (idle : fleet.handing = none) {entry : String × JobDefinition}
    {rest : List (String × JobDefinition)} (next : fleet.upcoming = entry :: rest)
    {ledger : Ledger} {last : Job} (handing : Option Handout) (filed : ledger.Filed)
    (readable : ledger.Readable)
    (others : ∀ id, id ≠ (JobDefinition.job entry).id →
      ledger.job? id = fleet.harvest.hub.ledger.job? id)
    (found : ledger.job? (JobDefinition.job entry).id = .ok (some last))
    (plan : last.tasks = (JobDefinition.job entry).tasks)
    (state : last.state = if (JobDefinition.job entry).tasks = [] then .finished else .ready)
    (begun : unsent handing = (JobDefinition.job entry).subjects)
    (follows : ∀ handout, handing = some handout → handout.Follows (JobDefinition.job entry)) :
    fleet.Advances file
      { fleet with
        harvest := { fleet.harvest with
          hub := { fleet.harvest.hub with ledger := ledger }
          jobs := fleet.harvest.jobs ++ [(JobDefinition.job entry).id] }
        upcoming := rest
        handing := handing } := by
  have plans := going.plans
  rw [desk, next, idle] at plans
  have new := plans.new listing.distinct
  constructor
  · have size : (unsent handing).length = entry.2.tasks.length := by
      rw [begun, Job.subjects, List.length_map, Job.taskIds, List.length_map, List.length_range]
      rfl
    simp only [todo, next, idle, List.map_cons, List.sum_cons, Option.elim_none]
    cases handing with
    | none =>
        simp only [Option.elim_none]
        omega
    | some handout =>
        simp only [unsent, Option.elim_some, Handout.subjects, List.length_map] at size ⊢
        omega
  · refine ⟨added ++ [JobDefinition.job entry], journal, ?_⟩
    constructor
    · exact plans.enter begun follows
    · exact going.serves.add new filed others found plan state
    · exact going.equipped.of_same readable rfl rfl
    · exact going.flow
    · exact going.mailed
    · exact going.shows

/-- A job is written down.  If it has no tasks, it is finished at once. -/
theorem add (going : fleet.Going file added journal) (listing : Job.Listing file)
    (idle : fleet.handing = none) (some : fleet.upcoming ≠ []) (now : Instant) :
    ∃ after, fleet.add now = .some after ∧ fleet.Advances file after := by
  rcases upcoming : fleet.upcoming with _ | ⟨⟨name, definition⟩, rest⟩
  · exact absurd upcoming some
  have filed := going.serves.agree.orderly.filed
  have readable := going.equipped.readable
  have whole : (definition.toJob name now).limits.Whole := by
    have split : file = added ++ fleet.upcoming.map JobDefinition.job := going.plans.split
    apply listing.whole (JobDefinition.job (name, definition))
    rw [split, upcoming]
    exact List.mem_append_right _ List.mem_cons_self
  have filed := filed.putJob whole
  have found : (fleet.harvest.hub.ledger.putJob (definition.toJob name now)).job?
      (definition.toJob name now).id = .ok (.some (definition.toJob name now)) :=
    (job?_putJob whole _).trans (if_pos rfl)
  have others (id : String) (differ : id ≠ (definition.toJob name now).id) :
      (fleet.harvest.hub.ledger.putJob (definition.toJob name now)).job? id =
        fleet.harvest.hub.ledger.job? id := by
    rw [job?_putJob whole, if_neg differ]
  have readable : (fleet.harvest.hub.ledger.putJob (definition.toJob name now)).Readable :=
    readable.of_same rfl rfl rfl
  rw [Fleet.add, idle, upcoming]
  dsimp only
  by_cases empty : (definition.toJob name now).tasks = []
  · rcases setJobState_of_stored filed found .finished now with ⟨ledger, finishes, restated⟩
    rw [if_pos empty, Harvest.finishEmpty, Harvest.noteJob]
    dsimp only
    rw [finishes]
    refine ⟨_, rfl, ?_⟩
    apply going.enter listing idle upcoming none restated.filed
    · exact readable.of_same restated.resources restated.executions restated.latest
    · intro id differ
      exact (restated.others id differ).trans (others id differ)
    · exact restated.is
    · rfl
    · exact (if_pos empty).symm
    · have none : (JobDefinition.job (name, definition)).tasks = [] := empty
      rw [Job.subjects, Job.taskIds, none]
      rfl
    · rintro _ ⟨⟩
  · rw [if_neg empty, Harvest.noteJob]
    dsimp only
    rw [Hub.findJob_eq_ok_iff.2 found]
    refine ⟨_, rfl, ?_⟩
    apply going.enter listing idle upcoming _ filed readable others found rfl (if_neg empty).symm
    · exact List.map_map.symm
    · rintro _ ⟨⟩
      exact ⟨rfl, rfl, rfl, rfl, empty, fun _ mem => List.mem_range.1 mem⟩

/-! ## Handing out a task -/

/-- All tasks of the job were handed out. -/
theorem expect (going : fleet.Going file added journal) {id : String} {stored : Job}
    (busy : fleet.handing = some ⟨id, stored, []⟩) :
    fleet.Advances file { fleet with harvest := fleet.harvest.expect id, handing := none } := by
  have plans := going.plans
  rw [desk, busy] at plans
  constructor
  · simp only [todo, busy, Harvest.expect, Option.elim_none, Option.elim_some, List.length_nil]
    omega
  · refine ⟨added, journal, ?_⟩
    constructor
    · exact plans.expect
    · exact going.serves
    · exact going.equipped
    · exact going.flow
    · exact going.mailed
    · exact going.shows

/-- The next task of the job is handed to a node. -/
theorem hand_task (going : fleet.Going file added journal) {id : String} {stored : Job}
    {index : Nat} {rest : List Nat} (busy : fleet.handing = some ⟨id, stored, index :: rest⟩)
    (now : Instant) : ∃ after, fleet.hand now = some after ∧ fleet.Advances file after := by
  have plans := going.plans
  rw [desk, busy] at plans
  rcases plans.next going.serves.distinct with ⟨job, mem, rfl, same, inside, planned, new⟩
  rcases Hub.buildTask_of_readable going.equipped.readable inside with ⟨task, built⟩
  have name : task.id = stored.taskId index := Hub.buildTask_id built
  have subject : task.subject = (job.id, task.id) := by
    rw [Task.subject, Hub.buildTask_job built, same]
  rw [← name] at planned new
  -- the task is new to the accounts and the job accepts it, so that the hub sends it
  rcases going.serves.dispatch going.equipped.staffed mem planned new now with
    ⟨⟨number, node, answer⟩, sent, serves⟩
  rw [Fleet.hand, busy]
  dsimp only
  rw [built]
  dsimp only
  generalize fleet.harvest.hub.dispatch job.id task now = result at answer sent serves ⊢
  rcases result with ⟨hub, _⟩
  dsimp only at answer sent serves
  subst answer
  refine ⟨_, rfl, ?_⟩
  rcases sent.delivered with ⟨_, delivered⟩
  have waits := delivered.waiting
  have sends : sentTasks (journal ++ [.sent job.id task.id]) =
      sentTasks journal ++ [(job.id, task.id)] := sentTasks_append ..
  have quiet : reportedTasks (journal ++ [.sent job.id task.id]) = reportedTasks journal :=
    (reportedTasks_append ..).trans (List.append_nil _)
  constructor
  · have size := waits.length_eq
    simp only [todo, busy, setHub, Harvest.setHub, Option.elim_some, size, List.length_cons]
    omega
  · refine ⟨added, journal ++ [.sent job.id task.id], ?_⟩
    constructor
    · rw [sends, name]
      exact plans.hand
    · exact serves
    · have steady := sent.handed.steady
      constructor
      · exact sent.staffed
      · exact going.equipped.readable.of_same steady.resources steady.executions steady.latest
      · dsimp only [setHub, Harvest.setHub]
        rw [sent.backlog]
        exact ⟨_, Backlog.reopen_of_noted (Backlog.noted_enqueue ..)⟩
    · rw [sends, quiet, List.perm_iff_count]
      intro pair
      have flow := going.flow.count_eq pair
      have waits := (waits.map Task.subject).count_eq pair
      rw [List.map_cons, subject, List.count_cons] at waits
      simp only [underway, setHub, Harvest.setHub, List.count_append, List.count_singleton]
        at flow ⊢
      omega
    · rw [sends]
      exact going.mailed.mono (List.subset_append_left _ _)
    · rw [sends, quiet, List.length_append]
      dsimp only [setHub, Harvest.setHub]
      rw [sent.metrics]
      exact going.shows.taskDispatched

/-! ## Carrying out a task -/

/-- A node takes a task. -/
theorem take (going : fleet.Going file added journal) {node : Nat} {taker : Node} {task : Task}
    {rest : List Task} (there : fleet.harvest.hub.nodes[node]? = some taker)
    (waits : taker.inbox.waiting = task :: rest) :
    ∃ after, fleet.take node = some after ∧ fleet.Advances file after := by
  have serves := going.serves.idle (Hub.idle_takeTask fleet.harvest.hub node)
  have left : (Hub.waiting fleet.harvest.hub.nodes).Perm (task ::
      Hub.waiting (fleet.harvest.hub.nodes.set node (Hub.withWaiting taker rest))) :=
    Hub.flatMap_taken there waits
  rw [Fleet.take, there]
  rw [Hub.takeTask_of_waiting there waits] at serves ⊢
  refine ⟨_, rfl, ?_⟩
  constructor
  · have size := left.length_eq
    simp only [todo, setHub, Harvest.setHub, size, List.length_cons, List.length_append,
      List.length_nil]
    omega
  · refine ⟨added, journal, ?_⟩
    constructor
    · exact going.plans
    · exact serves
    · exact ⟨going.equipped.staffed.taken there rfl, going.equipped.readable, going.equipped.reopens⟩
    · rw [List.perm_iff_count]
      intro pair
      have flow := going.flow.count_eq pair
      have left := (left.map Task.subject).count_eq pair
      rw [List.map_cons, List.count_cons] at left
      simp only [underway, setHub, Harvest.setHub, List.count_append, List.map_append,
        List.map_cons, List.map_nil, List.count_singleton] at flow ⊢
      omega
    · exact going.mailed
    · exact going.shows

/-- A node carries out a task that it has taken. -/
theorem work (going : fleet.Going file added journal) {settings : Settings} {network : Network}
    {clock : Instant → Prop} (works : fleet.Works settings network clock) (shown : clock now)
    (plain : now.Plain) {index : Nat} {assigned : String × Task}
    (there : fleet.running[index]? = some assigned) :
    ∃ after, fleet.work settings network index now = some after ∧ fleet.Advances file after := by
  have mem := List.mem_of_getElem? there
  rcases works.reports mem now with ⟨harvest, report, carried⟩
  rcases works.opens assigned mem with ⟨files, sink, opens⟩
  have fits := works.fits assigned mem now shown harvest report carried
  rcases Harvest.of_carryOut carried with ⟨trace, made, rfl⟩
  have ends := NodeSetup.endsOnce_run made opens
  rcases NodeSetup.report_run made with ⟨outcome, subTasks, reported⟩
  have subject : report.subject = assigned.2.subject := by rw [reported]; rfl
  have completed : report.completedAt = now := by rw [reported]; rfl
  have taken := Hub.perm_eraseIdx there
  rw [Fleet.work, there]
  dsimp only
  rw [carried]
  have finished := congrArg Metrics.jobsFinished ends.counted.2
  refine ⟨_, rfl, ?_⟩
  constructor
  · have size := taken.length_eq
    rw [List.length_cons] at size
    simp only [todo, List.length_append, List.length_singleton]
    omega
  · refine ⟨added, journal, ?_⟩
    constructor
    · exact going.plans
    · exact going.serves.idle (.idle rfl rfl rfl finished)
    · exact going.equipped.of_same going.equipped.readable rfl rfl
    · rw [List.perm_iff_count]
      intro pair
      have flow := going.flow.count_eq pair
      have taken := (taken.map fun assigned => assigned.2.subject).count_eq pair
      rw [List.map_cons, List.count_cons] at taken
      simp only [underway, List.count_append, List.map_append, List.map_cons, List.map_nil,
        List.count_singleton, subject] at flow ⊢
      omega
    · exact going.mailed.work (completed.symm ▸ plain) fits
    · have size : (fleet.reports ++ [report]).length + fleet.arriving.length +
          (fleet.inFlight.length + (reportedTasks journal).length) =
          fleet.reports.length + fleet.arriving.length +
            (fleet.inFlight.length + (reportedTasks journal).length) + 1 := by
        rw [List.length_append, List.length_singleton]
        omega
      dsimp only
      rw [size]
      exact going.shows.retrieved ends

/-- A report is published. -/
theorem publish (going : fleet.Going file added journal) {index : Nat} {report : Completion}
    (there : fleet.reports[index]? = some report) :
    ∃ after, fleet.publish index = some after ∧ fleet.Advances file after := by
  have mem := List.mem_of_getElem? there
  have taken := Hub.perm_eraseIdx there
  have size := taken.length_eq
  rw [List.length_cons] at size
  rcases Wire.decodeCompletion_of_plain (going.mailed.plain report mem)
    (going.mailed.fits report mem) with ⟨instant, read⟩
  have arrives := (Wire.reports_append_of_read read fleet.arriving).1
  have subject : (Wire.keptAt report instant).subject = report.subject := rfl
  have isReport : Wire.isReport (Wire.encodeCompletion report) = true := by
    rw [Wire.isReport, read]
    rfl
  rw [Fleet.publish, there]
  refine ⟨_, rfl, ?_⟩
  constructor
  · simp only [todo, List.length_append, List.length_singleton]
    omega
  · refine ⟨added, journal, ?_⟩
    constructor
    · exact going.plans
    · exact going.serves
    · exact going.equipped
    · rw [List.perm_iff_count]
      intro pair
      have flow := going.flow.count_eq pair
      have taken := (taken.map Completion.subject).count_eq pair
      rw [List.map_cons, List.count_cons] at taken
      simp only [underway, arrives, List.count_append, List.map_append, List.map_cons,
        List.map_nil, List.count_singleton, subject] at flow ⊢
      omega
    · exact going.mailed.publish index isReport
    · have count : (fleet.reports.eraseIdx index).length +
          (fleet.arriving ++ [Wire.encodeCompletion report]).length =
          fleet.reports.length + fleet.arriving.length := by
        rw [List.length_append, List.length_singleton]
        omega
      dsimp only
      rw [count]
      exact going.shows

/-! ## Taking in a report -/

/-- The next message is received. -/
theorem receive (going : fleet.Going file added journal) {message : Bytes} {rest : List Bytes}
    (next : fleet.arriving = message :: rest) :
    ∃ after, fleet.receive = some after ∧ fleet.Advances file after := by
  have isReport := going.mailed.read message (next ▸ List.mem_cons_self)
  rcases read : Wire.decodeCompletion message with error | completion
  · rw [Wire.isReport, read] at isReport
    cases isReport
  have arrived : Wire.reports (message :: rest) = completion :: Wire.reports rest := by
    simp [Wire.reports, read, Except.toOption]
  have sent : completion.subject ∈ sentTasks journal := by
    apply going.flow.subset
    simp only [underway, next, arrived, List.map_cons, List.mem_append, List.mem_cons]
    tauto
  rw [Fleet.receive, next]
  dsimp only
  rw [read]
  refine ⟨_, rfl, ?_⟩
  constructor
  · simp only [todo, next, setHub, Harvest.setHub, Hub.count, List.length_append,
      List.length_cons, List.length_nil]
    omega
  · refine ⟨added, journal, ?_⟩
    constructor
    · exact going.plans
    · exact going.serves.idle (.idle rfl rfl rfl rfl)
    · exact going.equipped.of_same going.equipped.readable rfl rfl
    · rw [List.perm_iff_count]
      intro pair
      have flow := going.flow.count_eq pair
      simp only [underway, next, arrived, setHub, Harvest.setHub, Hub.count, List.count_append,
        List.map_append, List.map_cons, List.map_nil, List.count_cons, List.count_nil] at flow ⊢
      omega
    · have mailed := going.mailed
      rw [next] at mailed
      exact mailed.receive sent
    · have shows := going.shows.eventReceived
      have ended : fleet.reports.length + fleet.arriving.length +
          (fleet.inFlight.length + (reportedTasks journal).length) =
          fleet.reports.length + rest.length +
            (fleet.inFlight.length + 1 + (reportedTasks journal).length) := by
        rw [next, List.length_cons]
        omega
      rw [ended, Nat.add_right_comm _ (reportedTasks journal).length 1] at shows
      dsimp only [setHub, Harvest.setHub]
      rw [List.length_append, List.length_append]
      exact shows

/-- A task that was handed out is one of a stored job. -/
theorem stored_of_sent (going : fleet.Going file added journal) {id task : String}
    (sent : (id, task) ∈ sentTasks journal) :
    ∃ job, fleet.harvest.hub.ledger.job? id = .ok (some job) := by
  rcases going.serves.sent _ _ sent with ⟨job, mem, rfl, _⟩
  rcases (going.serves.served job mem).stored with ⟨last, found, _⟩
  exact ⟨last, found⟩

/-- The oldest report is recorded. -/
theorem record (going : fleet.Going file added journal) {completion : Completion}
    {rest : List Completion} (next : fleet.inbox = completion :: rest) (now : Instant) :
    ∃ after, fleet.record now = some after ∧ fleet.Advances file after := by
  have sent := going.mailed.known completion (next ▸ List.mem_cons_self)
  rcases going.stored_of_sent sent with ⟨job, found⟩
  rcases record_of_readable going.equipped.readable found now with ⟨recording, done⟩
  have serves := going.serves.idle (Hub.idle_record fleet.harvest.hub completion now)
  have readable := going.equipped.readable.record completion now
  rw [Fleet.record, next]
  dsimp only
  rw [Hub.record_eq, done] at serves ⊢
  refine ⟨_, rfl, ?_⟩
  constructor
  · simp only [todo, next, setHub, Harvest.setHub, List.length_cons]
    omega
  · refine ⟨added, journal, ?_⟩
    constructor
    · exact going.plans
    · exact serves
    · exact going.equipped.of_same readable rfl rfl
    · exact going.flow
    · have mailed := going.mailed
      rw [next] at mailed
      exact mailed.record
    · have shows := going.shows
      rw [next, List.length_cons] at shows
      exact shows.executionRecorded

/-- A report is taken into account. -/
theorem settle (going : fleet.Going file added journal) {index : Nat} {completion : Completion}
    (there : fleet.inFlight[index]? = some completion) (now : Instant) :
    ∃ after, fleet.settle index now = some after ∧ fleet.Advances file after := by
  have mem := List.mem_of_getElem? there
  have taken := Hub.perm_eraseIdx there
  have size := taken.length_eq
  rw [List.length_cons] at size
  have sent : completion.subject ∈ sentTasks journal := by
    apply going.flow.subset
    simp only [underway, List.mem_append]
    exact .inl (.inr (List.mem_map_of_mem mem))
  -- a task is in one place only, so that no report on this one came in before
  have new : completion.subject ∉ reportedTasks journal := by
    have once := going.flow.nodup_iff.2 going.serves.agree.once
    rw [List.nodup_append] at once
    intro old
    apply once.2.2 completion.subject _ _ old rfl
    exact List.mem_append_right _ (List.mem_map_of_mem mem)
  have orderly := going.serves.agree.orderly
  have undisturbed := Hub.undisturbed_onCompletion fleet.harvest.hub completion now
  have alike := (Hub.settles_onCompletion orderly.free orderly.filed completion now).ledger
  rcases going.serves.metrics_report sent new now with ⟨finished, metrics⟩
  rcases going.serves.report sent now with ⟨status, serves⟩
  rw [Fleet.settle, there]
  dsimp only
  generalize (fleet.harvest.hub.onCompletion completion now).1 = hub
    at undisturbed alike metrics serves ⊢
  refine ⟨_, rfl, ?_⟩
  have quiet : sentTasks (journal ++ [.reported completion.job completion.task (.ok status)]) =
      sentTasks journal := (sentTasks_append ..).trans (List.append_nil _)
  have reports : reportedTasks
      (journal ++ [.reported completion.job completion.task (.ok status)]) =
      reportedTasks journal ++ [completion.subject] := reportedTasks_append ..
  constructor
  · simp only [todo, setHub, Harvest.setHub, undisturbed.nodes]
    omega
  · refine ⟨added, journal ++ [.reported completion.job completion.task (.ok status)], ?_⟩
    constructor
    · rw [quiet]
      exact going.plans
    · exact serves
    · exact going.equipped.of_same (going.equipped.readable.of_alike alike) undisturbed.nodes
        undisturbed.backlog
    · rw [quiet, reports, List.perm_iff_count]
      intro pair
      have flow := going.flow.count_eq pair
      have taken := (taken.map Completion.subject).count_eq pair
      rw [List.map_cons, List.count_cons] at taken
      simp only [underway, setHub, Harvest.setHub, undisturbed.nodes, List.count_append,
        List.count_singleton] at flow ⊢
      omega
    · rw [quiet]
      exact going.mailed
    · have count : (fleet.inFlight.eraseIdx index).length +
          (reportedTasks journal ++ [completion.subject]).length =
          fleet.inFlight.length + (reportedTasks journal).length := by
        rw [List.length_append, List.length_singleton]
        omega
      rw [quiet, reports]
      dsimp only [setHub, Harvest.setHub]
      rw [count, metrics]
      exact going.shows.jobsFinished finished

end Fleet.Going

end MediaHarvest
