import MediaHarvest.Proofs.Backlog.Runs
import MediaHarvest.Proofs.Harvest.Fleet
import MediaHarvest.Proofs.Harvest.JobsFile
import MediaHarvest.Proofs.Hub.Schedules
import MediaHarvest.Proofs.Hub.Serving
import MediaHarvest.Proofs.Retrieval.Counts

/-!
# What the parts of a harvest keep

For each part of a harvest it is said by itself what holds between its turns, and that its turns keep
it: for the nodes and what waits for them, for the desk that adds jobs and hands out their tasks, for
what is on its way to the hub, and for the counters.
-/

namespace MediaHarvest

open Ledger

/-! ## Where tasks are -/

/-- The job and the task that a task names. -/
def Task.subject (task : Task) : String × String := (task.job, task.id)

/-- The tasks that wait for nodes. -/
def Hub.waiting (nodes : List Node) : List Task := nodes.flatMap fun node => node.inbox.waiting

/-- The tasks that are still to be handed out. -/
def Handout.subjects (handout : Handout) : List (String × String) :=
  handout.left.map fun index => (handout.id, handout.job.taskId index)

namespace Fleet

/-- The tasks of the job that is being handed out that are left. -/
def unsent (handing : Option Handout) : List (String × String) :=
  handing.elim [] Handout.subjects

end Fleet

/-! ## Nodes -/

namespace Hub

/-- What the elements of a list come to after one of them was replaced by one with more. -/
theorem flatMap_set {α β : Type} {list : List α} {index : Nat} {old new : α} {values : α → List β}
    (more : List β) (there : list[index]? = some old)
    (grows : (values new).Perm (more ++ values old)) :
    ((list.set index new).flatMap values).Perm (more ++ list.flatMap values) := by
  rcases List.getElem?_eq_some_iff.1 there with ⟨inside, rfl⟩
  have whole : list = list.take index ++ list[index] :: list.drop (index + 1) := by simp
  rw [List.set_eq_take_append_cons_drop, if_pos inside]
  conv_rhs => rw [whole]
  simp only [List.flatMap_append, List.flatMap_cons]
  refine ((List.Perm.append_right _ grows).append_left _).trans ?_
  rw [List.append_assoc]
  exact List.perm_append_comm_assoc ..

/-- What the elements of a list come to, of one of which a value is taken. -/
theorem flatMap_taken {α β : Type} {list : List α} {index : Nat} {old new : α}
    {values : α → List β} {value : β} (there : list[index]? = some old)
    (shrinks : values old = value :: values new) :
    (list.flatMap values).Perm (value :: (list.set index new).flatMap values) := by
  rcases List.getElem?_eq_some_iff.1 there with ⟨inside, rfl⟩
  -- the element as it was is put back
  have back := flatMap_set [value] (List.getElem?_set_self (a := new) inside)
    (.of_eq shrinks)
  rw [List.set_set, List.set_getElem_self] at back
  exact back

/-- A list is one of its values and what is left without it. -/
theorem perm_eraseIdx {α : Type} {list : List α} {index : Nat} {value : α}
    (there : list[index]? = some value) : (value :: list.eraseIdx index).Perm list := by
  rcases List.getElem?_eq_some_iff.1 there with ⟨inside, rfl⟩
  exact List.getElem_cons_eraseIdx_perm inside

/-- A task that was delivered waits. -/
theorem Delivered.waiting {before after : List Node} {task : Task} {node : String}
    (delivered : Delivered before after task node) :
    (waiting after).Perm (task :: waiting before) := by
  rcases delivered with ⟨index, taker, inbox, there, _, taken, rfl⟩
  apply flatMap_set [task] there
  rw [Channel.send?] at taken
  split at taken
  · cases taken
    exact List.perm_append_comm
  · cases taken

/-- The node with other tasks waiting. -/
def withWaiting (node : Node) (tasks : List Task) : Node :=
  ⟨node.id, ⟨node.inbox.isOpen, tasks⟩⟩

/-- A node takes the oldest task that waits for it. -/
theorem takeTask_of_waiting {hub : Hub} {index : Nat} {node : Node} {task : Task}
    {rest : List Task} (there : hub.nodes[index]? = some node)
    (waits : node.inbox.waiting = task :: rest) :
    hub.takeTask index =
      (some task, { hub with nodes := hub.nodes.set index (withWaiting node rest) }) := by
  rw [takeTask, there]
  dsimp only
  rw [Channel.receive, waits]
  rfl

/-- A hub with the same nodes is staffed as well. -/
theorem Staffed.of_nodes {hub after : Hub} (staffed : Staffed hub)
    (same : after.nodes = hub.nodes) : Staffed after where
  some := by
    rw [same]
    exact staffed.some
  healthy := by
    rw [isHealthy, same]
    exact staffed.healthy

/-- A node that took a task takes further ones. -/
theorem Staffed.taken {hub after : Hub} {index : Nat} {node : Node} {rest : List Task}
    (staffed : Staffed hub) (there : hub.nodes[index]? = .some node)
    (same : after.nodes = hub.nodes.set index (withWaiting node rest)) : Staffed after := by
  have healthy := List.all_eq_true.1 staffed.healthy
  constructor
  · rw [same]
    exact fun none => staffed.some ((List.set_eq_nil_iff _ _).1 none)
  · rw [isHealthy, same, List.all_eq_true]
    intro other mem
    rcases List.mem_or_eq_of_mem_set mem with before | rfl
    · exact healthy other before
    · exact healthy node (List.mem_of_getElem? there)

end Hub

/-! ## The desk -/

/-- The tasks of a served job are being handed out. -/
structure Handout.Follows (handout : Handout) (job : Job) : Prop where
  asked : handout.id = job.id
  id : handout.job.id = job.id
  tasks : handout.job.tasks = job.tasks
  limits : handout.job.limits = job.limits
  some : job.tasks ≠ []
  inside : ∀ index ∈ handout.left, index < job.tasks.length

/-- Where adding jobs and handing them out has come to. -/
structure Desk where
  /-- The jobs that were not added. -/
  upcoming : List (String × JobDefinition)
  handing : Option Handout
  /-- The names of the jobs that were added. -/
  jobs : List String
  pending : List String

def Fleet.desk (fleet : Fleet) : Desk :=
  ⟨fleet.upcoming, fleet.handing, fleet.harvest.jobs, fleet.harvest.pending⟩

/-- Of the jobs of a file, `added` were added, and the tasks in `sent` were handed out. -/
structure Desk.Plans (file added : List Job) (sent : List (String × String)) (desk : Desk) :
    Prop where
  split : file = added ++ desk.upcoming.map JobDefinition.job
  jobs : desk.jobs = added.map Job.id
  /-- Tasks are handed out in order. -/
  sent : sent ++ Fleet.unsent desk.handing = added.flatMap Job.subjects
  handing : ∀ handout, desk.handing = some handout → ∃ job ∈ added, handout.Follows job
  pending : ∀ id ∈ desk.pending, ∃ job ∈ added, job.id = id ∧ job.tasks ≠ []

namespace Desk.Plans

variable {file added : List Job} {sent : List (String × String)} {entry : String × JobDefinition}
  {rest upcoming : List (String × JobDefinition)} {handing : Option Handout}
  {jobs pending : List String} {id : String} {stored : Job} {index : Nat} {left : List Nat}

/-- A job that was not added is not named like one that was. -/
theorem new (plans : Desk.Plans file added sent ⟨entry :: rest, handing, jobs, pending⟩)
    (distinct : (file.map Job.id).Nodup) : (JobDefinition.job entry).id ∉ added.map Job.id := by
  rw [plans.split, List.map_append, List.map_cons, List.map_cons, List.nodup_append] at distinct
  intro mem
  exact distinct.2.2 _ mem _ List.mem_cons_self rfl

/-- The next job was added, and its tasks are to be handed out. -/
theorem enter (plans : Desk.Plans file added sent ⟨entry :: rest, none, jobs, pending⟩)
    (begun : Fleet.unsent handing = (JobDefinition.job entry).subjects)
    (follows : ∀ handout, handing = some handout → handout.Follows (JobDefinition.job entry)) :
    Desk.Plans file (added ++ [JobDefinition.job entry]) sent
      ⟨rest, handing, jobs ++ [(JobDefinition.job entry).id], pending⟩ where
  split := by
    rw [plans.split, List.append_assoc]
    rfl
  jobs := by
    have before : jobs = added.map Job.id := plans.jobs
    rw [before, List.map_append]
    rfl
  sent := by
    rw [begun, List.flatMap_append, ← plans.sent]
    simp [Fleet.unsent]
  handing := fun handout same =>
    ⟨_, List.mem_append_right _ List.mem_cons_self, follows handout same⟩
  pending := by
    intro id mem
    rcases plans.pending id mem with ⟨job, old, same⟩
    exact ⟨job, List.mem_append_left _ old, same⟩

/-- The next task is one that the job plans, and was not handed out. -/
theorem next
    (plans : Desk.Plans file added sent ⟨upcoming, some ⟨id, stored, index :: left⟩, jobs, pending⟩)
    (distinct : (added.map Job.id).Nodup) :
    ∃ job ∈ added, id = job.id ∧ stored.id = job.id ∧ index < stored.tasks.length ∧
      stored.taskId index ∈ job.taskIds ∧ (id, stored.taskId index) ∉ sent := by
  rcases plans.handing _ rfl with ⟨job, mem, follows⟩
  have inside := follows.inside index List.mem_cons_self
  refine ⟨job, mem, follows.asked, follows.id, ?_, ?_, ?_⟩
  · rw [follows.tasks]
    exact inside
  · rw [Job.taskId, follows.id]
    exact Job.mem_taskIds.2 ⟨index, inside, rfl⟩
  · intro old
    have once := Job.nodup_subjects distinct
    rw [← plans.sent, List.nodup_append] at once
    exact once.2.2 _ old _ List.mem_cons_self rfl

/-- The next task was handed out. -/
theorem hand
    (plans : Desk.Plans file added sent
      ⟨upcoming, some ⟨id, stored, index :: left⟩, jobs, pending⟩) :
    Desk.Plans file added (sent ++ [(id, stored.taskId index)])
      ⟨upcoming, some ⟨id, stored, left⟩, jobs, pending⟩ where
  split := plans.split
  jobs := plans.jobs
  sent := by
    rw [List.append_assoc]
    exact plans.sent
  handing := by
    rintro _ ⟨⟩
    rcases plans.handing _ rfl with ⟨job, mem, follows⟩
    exact ⟨job, mem, follows.asked, follows.id, follows.tasks, follows.limits, follows.some,
      fun other entry => follows.inside other (List.mem_cons_of_mem _ entry)⟩
  pending := plans.pending

/-- All tasks of the job were handed out. -/
theorem expect
    (plans : Desk.Plans file added sent ⟨upcoming, some ⟨id, stored, []⟩, jobs, pending⟩) :
    Desk.Plans file added sent ⟨upcoming, none, jobs, pending ++ [id]⟩ where
  split := plans.split
  jobs := plans.jobs
  sent := plans.sent
  handing := by
    rintro _ ⟨⟩
  pending := by
    intro other entry
    rcases List.mem_append.1 entry with old | own
    · exact plans.pending other old
    · rcases plans.handing _ rfl with ⟨job, mem, follows⟩
      cases List.mem_singleton.1 own
      exact ⟨job, mem, follows.asked.symm, follows.some⟩

end Desk.Plans

/-! ## The hub -/

/-- The stores can be read, and every node takes tasks. -/
structure Hub.Equipped (hub : Hub) : Prop where
  staffed : Staffed hub
  readable : hub.ledger.Readable
  reopens : ∃ backlog, hub.backlog.reopen = .ok backlog

/-- A hub with the same nodes and the same backlog is equipped as well, if its ledger can be read. -/
theorem Hub.Equipped.of_same {hub after : Hub} (equipped : hub.Equipped)
    (readable : after.ledger.Readable) (nodes : after.nodes = hub.nodes)
    (backlog : after.backlog = hub.backlog) : after.Equipped where
  staffed := equipped.staffed.of_nodes nodes
  readable := readable
  reopens := by
    rw [backlog]
    exact equipped.reopens

/-! ## On the way to the hub -/

/-- What is on its way to the hub can be read, and tells of tasks that were handed out. -/
structure Fleet.Mailed (sent : List (String × String)) (reports : List Completion)
    (arriving : List Bytes) (inbox : List Completion) : Prop where
  plain : ∀ report ∈ reports, report.completedAt.Plain
  fits : ∀ report ∈ reports, (Wire.encodeCompletion report).length < 2 ^ 64
  /-- Every message is a report. -/
  read : ∀ message ∈ arriving, Wire.isReport message = true
  known : ∀ completion ∈ inbox, completion.subject ∈ sent

namespace Fleet.Mailed

variable {sent more : List (String × String)} {reports : List Completion} {arriving : List Bytes}
  {inbox : List Completion} {report : Completion} {message : Bytes}

/-- More tasks may have been handed out. -/
theorem mono (mailed : Mailed sent reports arriving inbox) (grows : sent ⊆ more) :
    Mailed more reports arriving inbox :=
  ⟨mailed.plain, mailed.fits, mailed.read,
    fun completion mem => grows (mailed.known completion mem)⟩

/-- A further report is to be published. -/
theorem work (mailed : Mailed sent reports arriving inbox) (plain : report.completedAt.Plain)
    (fits : (Wire.encodeCompletion report).length < 2 ^ 64) :
    Mailed sent (reports ++ [report]) arriving inbox where
  plain := List.forall_mem_append.2 ⟨mailed.plain, List.forall_mem_singleton.2 plain⟩
  fits := List.forall_mem_append.2 ⟨mailed.fits, List.forall_mem_singleton.2 fits⟩
  read := mailed.read
  known := mailed.known

/-- A report was published. -/
theorem publish (mailed : Mailed sent reports arriving inbox) (index : Nat)
    (isReport : Wire.isReport message = true) :
    Mailed sent (reports.eraseIdx index) (arriving ++ [message]) inbox where
  plain := fun other mem => mailed.plain other (List.mem_of_mem_eraseIdx mem)
  fits := fun other mem => mailed.fits other (List.mem_of_mem_eraseIdx mem)
  read := List.forall_mem_append.2 ⟨mailed.read, List.forall_mem_singleton.2 isReport⟩
  known := mailed.known

/-- The next report was received. -/
theorem receive (mailed : Mailed sent reports (message :: arriving) inbox)
    (known : report.subject ∈ sent) : Mailed sent reports arriving (inbox ++ [report]) where
  plain := mailed.plain
  fits := mailed.fits
  read := (List.forall_mem_cons.1 mailed.read).2
  known := List.forall_mem_append.2 ⟨mailed.known, List.forall_mem_singleton.2 known⟩

/-- The oldest report was recorded. -/
theorem record (mailed : Mailed sent reports arriving (report :: inbox)) :
    Mailed sent reports arriving inbox :=
  ⟨mailed.plain, mailed.fits, mailed.read, (List.forall_mem_cons.1 mailed.known).2⟩

end Fleet.Mailed

/-! ## Counters -/

/-- What the counters show: so many tasks were handed out, so many retrievals have ended, so many
reports came in, and of these so many were not recorded. -/
structure Metrics.Shows (sent ended came unrecorded : Nat) (metrics : Metrics) : Prop where
  dispatched : metrics.tasksDispatched = UInt64.ofNat sent
  retrievals : metrics.retrievals = UInt64.ofNat ended
  received : metrics.eventsReceived = UInt64.ofNat came
  recorded : metrics.statisticsRecorded + UInt64.ofNat unrecorded = UInt64.ofNat came
  ignored : metrics.eventsIgnored = 0
  undecodable : metrics.eventsUndecodable = 0

namespace Metrics.Shows

variable {metrics : Metrics} {sent ended came unrecorded : Nat}

theorem taskDispatched (shows : metrics.Shows sent ended came unrecorded) :
    metrics.taskDispatched.Shows (sent + 1) ended came unrecorded where
  dispatched := by
    rw [Metrics.taskDispatched, shows.dispatched, UInt64.ofNat_add]
    rfl
  retrievals := shows.retrievals
  received := shows.received
  recorded := shows.recorded
  ignored := shows.ignored
  undecodable := shows.undecodable

theorem retrieved {after : Metrics} (shows : metrics.Shows sent ended came unrecorded)
    (ends : metrics.EndsOnce after) : after.Shows sent (ended + 1) came unrecorded := by
  rcases ends.counted with ⟨retrieved, others⟩
  constructor
  · exact (congrArg Metrics.tasksDispatched others).trans shows.dispatched
  · rw [retrieved, shows.retrievals, UInt64.ofNat_add]
    rfl
  · exact (congrArg Metrics.eventsReceived others).trans shows.received
  · have recorded := congrArg Metrics.statisticsRecorded others
    exact (congrArg (· + UInt64.ofNat unrecorded) recorded).trans shows.recorded
  · exact (congrArg Metrics.eventsIgnored others).trans shows.ignored
  · exact (congrArg Metrics.eventsUndecodable others).trans shows.undecodable

theorem eventReceived (shows : metrics.Shows sent ended came unrecorded) :
    metrics.eventReceived.Shows sent ended (came + 1) (unrecorded + 1) where
  dispatched := shows.dispatched
  retrievals := shows.retrievals
  received := by
    rw [Metrics.eventReceived, shows.received, UInt64.ofNat_add]
    rfl
  recorded := by
    rw [UInt64.ofNat_add, UInt64.ofNat_add, ← shows.recorded, ← UInt64.add_assoc]
    rfl
  ignored := shows.ignored
  undecodable := shows.undecodable

theorem executionRecorded (shows : metrics.Shows sent ended came (unrecorded + 1)) :
    metrics.executionRecorded.Shows sent ended came unrecorded where
  dispatched := shows.dispatched
  retrievals := shows.retrievals
  received := shows.received
  recorded := by
    rw [← shows.recorded, UInt64.ofNat_add, Metrics.executionRecorded, UInt64.add_assoc,
      UInt64.add_comm 1]
    rfl
  ignored := shows.ignored
  undecodable := shows.undecodable

/-- Finished jobs are counted apart. -/
theorem jobsFinished (shows : metrics.Shows sent ended came unrecorded) (finished : UInt64) :
    Metrics.Shows sent ended came unrecorded { metrics with jobsFinished := finished } :=
  ⟨shows.dispatched, shows.retrievals, shows.received, shows.recorded, shows.ignored,
    shows.undecodable⟩

end Metrics.Shows

end MediaHarvest
