import MediaHarvest.Proofs.Hub.Completeness
import MediaHarvest.Proofs.Hub.Journal
import Mathlib.Data.List.Perm.Subperm

/-!
# Every job is finished once

A job whose plan does not change is declared finished at most once in a run, and exactly at the
report after which each of its tasks was handed to a node and reported on afterwards.  The invariant
`Followed` ties the journal to the three places that know of the job: its account, the retired jobs
and the ledger.
-/

namespace MediaHarvest

open Accountant

/-! ## Tasks that have ended -/

/-- A task was handed to a node, and a report on it was answered later. -/
def Ended (journal : List Entry) (job task : String) : Prop :=
  ∃ answer, [Entry.sent job task, .reported job task answer].Sublist journal

/-- Every task that a job plans has ended. -/
def AllEnded (journal : List Entry) (job : Job) : Prop :=
  ∀ index < job.tasks.length, Ended journal job.id (job.taskId index)

theorem mem_sentTasks {journal : List Entry} {job task : String} :
    (job, task) ∈ sentTasks journal ↔ Entry.sent job task ∈ journal := by
  rw [sentTasks, List.mem_flatMap]
  constructor
  · rintro ⟨entry, mem, found⟩
    cases entry with
    | sent _ _ =>
        cases List.mem_singleton.1 found
        exact mem
    | reported => cases found
    | reconciled => cases found
  · intro mem
    exact ⟨_, mem, List.mem_singleton_self _⟩

theorem Ended.sent {journal : List Entry} {job task : String} (ended : Ended journal job task) :
    (job, task) ∈ sentTasks journal := by
  obtain ⟨answer, order⟩ := ended
  exact mem_sentTasks.2 (order.subset (by simp))

/-- What has ended stays so. -/
theorem Ended.append {journal : List Entry} {job task : String} (ended : Ended journal job task)
    (noted : List Entry) : Ended (journal ++ noted) job task := by
  obtain ⟨answer, order⟩ := ended
  exact ⟨answer, order.trans (List.sublist_append_left _ _)⟩

/-- Nothing ends without a report. -/
theorem ended_append_of_silent {journal noted : List Entry} {job task : String}
    (silent : ∀ answer, Entry.reported job task answer ∉ noted) :
    Ended (journal ++ noted) job task ↔ Ended journal job task := by
  refine ⟨?_, fun ended => ended.append noted⟩
  rintro ⟨answer, order⟩
  obtain ⟨early, late, split, front, back⟩ := List.sublist_append_iff.1 order
  cases late with
  | nil =>
      rw [List.append_nil] at split
      exact ⟨answer, split ▸ front⟩
  | cons entry rest =>
      exfalso
      have last : Entry.reported job task answer ∈ entry :: rest := by
        have := congrArg List.getLast? split
        rw [List.getLast?_append_of_ne_nil _ (List.cons_ne_nil _ _)] at this
        exact List.mem_of_getLast? this.symm
      exact silent answer (back.subset last)

/-- A report ends its task if that was handed to a node. -/
theorem ended_append_reported {journal : List Entry} {job task other : String}
    {answer : Except CompletionError CompletionStatus} :
    Ended (journal ++ [.reported job task answer]) job other ↔
      Ended journal job other ∨ other = task ∧ (job, other) ∈ sentTasks journal := by
  by_cases same : other = task
  · subst same
    constructor
    · rintro ⟨_, order⟩
      refine .inr ⟨rfl, mem_sentTasks.2 ?_⟩
      have mem : Entry.sent job other ∈ journal ++ [.reported job other answer] :=
        order.subset (by simp)
      simpa using mem
    · rintro (ended | ⟨_, sent⟩)
      · exact ended.append _
      · have front := List.singleton_sublist.2 (mem_sentTasks.1 sent)
        exact ⟨answer, front.append (List.Sublist.refl [Entry.reported job other answer])⟩
  · have silent (status : Except CompletionError CompletionStatus) :
        Entry.reported job other status ∉ [Entry.reported job task answer] := by
      intro mem
      cases List.mem_singleton.1 mem
      exact same rfl
    rw [ended_append_of_silent silent]
    exact ⟨.inl, fun either => either.resolve_right fun both => same both.1⟩

/-! ## Complete accounts -/

/-- An account is large enough if it has every planned task. -/
theorem JobAccount.planned_le_size {account : JobAccount} {job : Job}
    (all : ∀ task ∈ job.taskIds, account.tasks.contains task = true) :
    job.tasks.length ≤ account.tasks.size := by
  have planned : job.taskIds.length = job.tasks.length := by simp [Job.taskIds]
  have size : account.tasks.keys.length = account.tasks.size := List.length_map _
  rw [← planned, ← size]
  exact (List.subperm_of_subset job.nodup_taskIds fun task mem =>
    SortedMap.mem_keys_iff.2 (all task mem)).length_le

/-- An account of planned tasks is large enough exactly if it has all of them. -/
theorem JobAccount.planned_le_size_iff {account : JobAccount} {job : Job}
    (declared : ∀ task, account.tasks.contains task = true → task ∈ job.taskIds) :
    job.tasks.length ≤ account.tasks.size ↔
      ∀ task ∈ job.taskIds, account.tasks.contains task = true := by
  have within : account.tasks.keys.Subperm job.taskIds :=
    List.subperm_of_subset account.tasks.nodup_keys fun task mem =>
      declared task (SortedMap.mem_keys_iff.1 mem)
  have planned : job.taskIds.length = job.tasks.length := by simp [Job.taskIds]
  have size : account.tasks.keys.length = account.tasks.size := List.length_map _
  constructor
  · rw [← planned, ← size]
    intro enough task mem
    exact SortedMap.mem_keys_iff.1 ((within.perm_of_length_le enough).mem_iff.2 mem)
  · exact planned_le_size

/-! ## Calls that concern the job -/

/-- A call on the way from dispatches to reports: for the job itself only tasks that it plans are
handed out, and it is neither looked at again nor removed.  For other jobs anything goes. -/
def Call.OnPath (job : Job) : Call → Prop
  | .dispatch id task => id = job.id → task.id ∈ job.taskIds
  | .reconcile id => id ≠ job.id
  | .removeJob id => id ≠ job.id
  | _ => True

namespace Hub

variable {hub after : Hub} {job : Job} {journal noted : List Entry} {now : Instant}

/-- What is known of a job after a run. -/
structure Followed (job : Job) (hub : Hub) (journal : List Entry) : Prop where
  agree : Journaled hub journal
  /-- The plan is stored as it was, and the job is finished once every task has ended. -/
  stored : ∃ last, hub.ledger.job? job.id = .ok (some last) ∧ last.tasks = job.tasks ∧
    (last.state = .finished ↔ AllEnded journal job)
  retired : hub.accountant.retired.contains job.id = true ↔ AllEnded journal job
  declared : ∀ task, hub.accountant.hasTask job.id task = true → task ∈ job.taskIds
  /-- An accounted task stands as the journal tells. -/
  ended : ∀ task record, hub.accountant.task? job.id task = some record →
    (record.state.isTerminal = true ↔ Ended journal job.id task)
  /-- The job was declared finished once every task had ended. -/
  finished : AllEnded journal job → (finishedJobs journal).count job.id = 1
  unfinished : ¬ AllEnded journal job → (finishedJobs journal).count job.id = 0

theorem allEnded_congr (same : ∀ task, Ended (journal ++ noted) job.id task ↔
    Ended journal job.id task) : AllEnded (journal ++ noted) job ↔ AllEnded journal job :=
  forall₂_congr fun _ _ => same _

/-- A step that leaves the job alone and says nothing of it. -/
theorem Followed.untouched (followed : Followed job hub journal)
    (agree : Journaled after (journal ++ noted))
    (silent : ∀ task answer, Entry.reported job.id task answer ∉ noted)
    (quiet : (finishedJobs noted).count job.id = 0)
    (jobs : after.ledger.job? job.id = hub.ledger.job? job.id)
    (retired : after.accountant.retired.contains job.id = hub.accountant.retired.contains job.id)
    (tasks : ∀ task, after.accountant.task? job.id task = hub.accountant.task? job.id task) :
    Followed job after (journal ++ noted) := by
  have same (task : String) : Ended (journal ++ noted) job.id task ↔ Ended journal job.id task :=
    ended_append_of_silent (silent task)
  have allSame := allEnded_congr same
  constructor
  · exact agree
  · rcases followed.stored with ⟨last, found, plan, state⟩
    exact ⟨last, jobs.trans found, plan, state.trans allSame.symm⟩
  · rw [retired, allSame]
    exact followed.retired
  · intro task present
    apply followed.declared
    rw [hasTask, tasks] at present
    exact present
  · intro task record found
    rw [tasks] at found
    rw [same]
    exact followed.ended task record found
  · intro all
    rw [finishedJobs_append, List.count_append, quiet, followed.finished (allSame.1 all)]
  · intro some
    rw [finishedJobs_append, List.count_append, quiet, followed.unfinished fun all =>
      some (allSame.2 all)]

/-- Handing out planned tasks. -/
theorem Followed.handed {names : List String} (followed : Followed job hub journal)
    (step : Handed hub after job.id names) (planned : names ⊆ job.taskIds) :
    Followed job after (journal ++ names.map (.sent job.id)) := by
  have silent (task : String) (answer : Except CompletionError CompletionStatus) :
      Entry.reported job.id task answer ∉ names.map (Entry.sent job.id) := by
    simp
  have same (task : String) : Ended (journal ++ names.map (.sent job.id)) job.id task ↔
      Ended journal job.id task := ended_append_of_silent (silent task)
  have allSame := allEnded_congr same
  constructor
  · exact followed.agree.handed step
  · rcases followed.stored with ⟨last, found, plan, state⟩
    rcases step.job found with ⟨next, found, goes⟩
    exact ⟨next, found, goes.tasks.trans plan, goes.finished.trans (state.trans allSame.symm)⟩
  · rw [step.retired, allSame]
    exact followed.retired
  · intro task present
    by_cases sent : task ∈ names
    · exact planned sent
    · apply followed.declared
      rw [hasTask, step.others task sent] at present
      exact present
  · intro task record found
    rw [same]
    by_cases sent : task ∈ names
    · -- a task that is handed out now was not handed out before, so nothing ended it
      rcases step.pending task sent with ⟨entered, pending, state⟩
      rw [pending] at found
      cases found
      have unsent : (job.id, task) ∉ sentTasks journal := by
        intro early
        rcases followed.agree.kept job.id task early with present | gone
        · rw [hasTask, step.fresh task sent] at present
          cases present
        · rw [step.active (List.ne_nil_of_mem sent)] at gone
          cases gone
      rw [state]
      constructor
      · rintro ⟨⟩
      · exact fun ended => absurd ended.sent unsent
    · rw [step.others task sent] at found
      exact followed.ended task record found
  · intro all
    rw [finishedJobs_append, finishedJobs_map_sent, List.append_nil]
    exact followed.finished (allSame.1 all)
  · intro some
    rw [finishedJobs_append, finishedJobs_map_sent, List.append_nil]
    exact followed.unfinished fun all => some (allSame.2 all)

/-! ## Reports for the job -/

/-- An account of planned tasks is complete and has ended exactly if every planned task has. -/
theorem complete_iff {account : JobAccount}
    (declared : ∀ task, account.tasks.contains task = true → task ∈ job.taskIds)
    (ended : ∀ task record, account.tasks.get? task = some record →
      (record.state.isTerminal = true ↔ Ended journal job.id task))
    (sent : ∀ task, Ended journal job.id task → account.tasks.contains task = true) :
    account.allTerminal = true ∧ job.tasks.length ≤ account.tasks.size ↔
      AllEnded journal job := by
  rw [JobAccount.allTerminal_iff, JobAccount.planned_le_size_iff declared]
  constructor
  · rintro ⟨terminal, complete⟩ index inside
    have planned : job.taskId index ∈ job.taskIds := Job.mem_taskIds.2 ⟨index, inside, rfl⟩
    rcases Option.isSome_iff_exists.1 (complete _ planned) with ⟨record, found⟩
    exact (ended _ record found).1 (terminal _ record found)
  · intro all
    constructor
    · intro task record found
      have present : account.tasks.contains task = true := by
        rw [SortedMap.contains, found]
        rfl
      rcases Job.mem_taskIds.1 (declared task present) with ⟨index, inside, rfl⟩
      exact (ended _ record found).2 (all index inside)
    · intro task planned
      rcases Job.mem_taskIds.1 planned with ⟨index, inside, rfl⟩
      exact sent _ (all index inside)

/-- The account of a followed job after a report. -/
theorem Followed.marked {account written : JobAccount} {task : String} {state : TaskState}
    {answer : Except CompletionError CompletionStatus} (followed : Followed job hub journal)
    (kept : hub.accountant.account? job.id = some account)
    (noted : Noted account written task state) (terminal : state.isTerminal = true) :
    (∀ other, written.tasks.contains other = true → other ∈ job.taskIds) ∧
      (∀ other record, written.tasks.get? other = some record →
        (record.state.isTerminal = true ↔
          Ended (journal ++ [.reported job.id task answer]) job.id other)) ∧
      ∀ other, Ended (journal ++ [.reported job.id task answer]) job.id other →
        written.tasks.contains other = true := by
  have view (other : String) :
      hub.accountant.task? job.id other = account.tasks.get? other := by
    rw [task?_eq, kept]
    rfl
  have active := followed.agree.orderly.sound.active_of_kept kept
  have accounted (other : String) (sent : (job.id, other) ∈ sentTasks journal) :
      account.tasks.contains other = true := by
    rcases followed.agree.kept job.id other sent with present | gone
    · rw [hasTask, view] at present
      exact present
    · rw [active] at gone
      cases gone
  constructor
  · intro other present
    apply followed.declared
    rw [hasTask, view]
    exact (noted.keys other).symm.trans present
  · constructor
    · intro other record found
      rw [noted.tasks] at found
      rw [ended_append_reported]
      split at found
      · next same =>
        rcases Option.map_eq_some_iff.1 found with ⟨before, stands, rfl⟩
        have present : hub.accountant.hasTask job.id other = true := by
          rw [hasTask, view, stands]
          rfl
        constructor
        · exact fun _ => .inr ⟨same, followed.agree.accounted job.id other present⟩
        · exact fun _ => TaskRecord.ended_isTerminal terminal
      · next differ =>
        rw [followed.ended other record ((view other).trans found)]
        constructor
        · exact .inl
        · exact fun either => either.resolve_right fun both => differ both.1
    · intro other ended
      rw [noted.keys]
      rcases ended_append_reported.1 ended with early | ⟨_, sent⟩
      · exact accounted other early.sent
      · exact accounted other sent

/-- A job that is accounted has not ended. -/
theorem Followed.unended {account : JobAccount} (followed : Followed job hub journal)
    (kept : hub.accountant.account? job.id = some account) : ¬ AllEnded journal job := by
  intro all
  have gone := followed.retired.2 all
  rw [followed.agree.orderly.sound.active_of_kept kept] at gone
  cases gone

/-- The next state of a job that has not ended, if it is not finished now. -/
theorem Followed.pending {account written : JobAccount} {accountant : Accountant}
    {metrics : Metrics} {task : String} {state : TaskState} (followed : Followed job hub journal)
    (kept : hub.accountant.account? job.id = some account)
    (rewritten : Rewritten hub.accountant accountant job.id written)
    (noted : Noted account written task state) (terminal : state.isTerminal = true)
    (uncounted : metrics.jobsFinished = hub.metrics.jobsFinished)
    (some : ¬ AllEnded (journal ++ [.reported job.id task (.ok .pending)]) job) :
    Followed job { hub with accountant := accountant, metrics := metrics }
      (journal ++ [.reported job.id task (.ok .pending)]) := by
  have before := followed.unended kept
  rcases followed.marked kept noted terminal with ⟨declared, ended, -⟩
  have step := settled_of_noted followed.agree.orderly kept rewritten noted uncounted
  constructor
  · exact followed.agree.settled step rfl
  · rcases followed.stored with ⟨last, found, plan, state⟩
    exact ⟨last, found, plan, state.trans (iff_of_false before some)⟩
  · rw [rewritten.retired]
    exact followed.retired.trans (iff_of_false before some)
  · intro other present
    apply declared
    rw [hasTask, rewritten.task?, if_pos rfl] at present
    exact present
  · intro other record found
    apply ended
    rw [rewritten.task?, if_pos rfl] at found
    exact found
  · exact fun all => absurd all some
  · intro _
    rw [finishedJobs_append, List.count_append, followed.unfinished before]
    rfl

/-- A job whose last task ends is finished. -/
theorem Followed.finish {last : Job} {accountant middle : Accountant} {ledger : Ledger}
    {metrics : Metrics} {task : String} (followed : Followed job hub journal)
    (before : ¬ AllEnded journal job) (found : hub.ledger.job? job.id = .ok (some last))
    (agree : Journaled
      { hub with
        ledger := ledger
        accountant := accountant
        metrics := metrics
        announced := hub.announced ++ [job.id] }
      (journal ++ [.reported job.id task (.ok .finished)]))
    (restated : Ledger.Restated hub.ledger ledger job.id last (last.withState .finished now))
    (closed : Closed middle accountant job.id)
    (all : AllEnded (journal ++ [.reported job.id task (.ok .finished)]) job) :
    Followed job
      { hub with
        ledger := ledger
        accountant := accountant
        metrics := metrics
        announced := hub.announced ++ [job.id] }
      (journal ++ [.reported job.id task (.ok .finished)]) := by
  constructor
  · exact agree
  · rcases followed.stored with ⟨stored, same, plan, _⟩
    rw [found] at same
    cases same
    exact ⟨_, restated.is, plan, iff_of_true rfl all⟩
  · rw [closed.retired]
    simp [all]
  · intro other present
    rw [hasTask, closed.task?, if_pos rfl] at present
    cases present
  · intro other record present
    rw [closed.task?, if_pos rfl] at present
    cases present
  · intro _
    rw [finishedJobs_append, List.count_append, followed.unfinished before]
    simp [finishedNames]
  · exact fun some => absurd all some

/-- A report ends the last task exactly if every planned task is accounted and has ended, apart
from the one that is reported. -/
theorem Followed.allEnded_next_iff {task : String}
    {answer : Except CompletionError CompletionStatus} (followed : Followed job hub journal)
    (before : ¬ AllEnded journal job) :
    AllEnded (journal ++ [.reported job.id task answer]) job ↔
      ∀ other ∈ job.taskIds, ∃ record, hub.accountant.task? job.id other = some record ∧
        (record.state.isTerminal = true ∨ other = task) := by
  have accounted (other : String) (sent : (job.id, other) ∈ sentTasks journal) :
      ∃ record, hub.accountant.task? job.id other = some record := by
    rcases followed.agree.kept job.id other sent with present | gone
    · exact hasTask_eq_true_iff.1 present
    · exact absurd (followed.retired.1 gone) before
  constructor
  · intro all other planned
    rcases Job.mem_taskIds.1 planned with ⟨index, inside, rfl⟩
    rcases ended_append_reported.1 (all index inside) with early | ⟨same, sent⟩
    · rcases accounted _ early.sent with ⟨record, found⟩
      exact ⟨record, found, .inl ((followed.ended _ record found).2 early)⟩
    · rcases accounted _ sent with ⟨record, found⟩
      exact ⟨record, found, .inr same⟩
  · intro all index inside
    have planned : job.taskId index ∈ job.taskIds := Job.mem_taskIds.2 ⟨index, inside, rfl⟩
    rcases all _ planned with ⟨record, found, terminal | same⟩
    · exact ((followed.ended _ record found).1 terminal).append _
    · have present := hasTask_eq_true_iff.2 ⟨record, found⟩
      exact ended_append_reported.2 (.inr ⟨same, followed.agree.accounted _ _ present⟩)

/-- The answer to a report for a job: it is declared finished exactly at the report that ends the
last of its tasks, and everything later is ignored. -/
structure Answered (job : Job) (hub : Hub) (journal : List Entry) (task : String)
    (status : CompletionStatus) : Prop where
  /-- Some task had not ended before, and every task has ended now. -/
  last : status = .finished ↔ ¬ AllEnded journal job ∧
    AllEnded (journal ++ [.reported job.id task (.ok status)]) job
  /-- Every task is accounted, and every one but the reported one had ended. -/
  accounts : status = .finished ↔ ∀ other ∈ job.taskIds, ∃ record,
    hub.accountant.task? job.id other = some record ∧
      (record.state.isTerminal = true ∨ other = task)
  /-- What comes after the last task is ignored. -/
  late : AllEnded journal job → status = .ignored

theorem Followed.answered {task : String} {status : CompletionStatus}
    (followed : Followed job hub journal) (before : ¬ AllEnded journal job)
    (last : status = .finished ↔ AllEnded (journal ++ [.reported job.id task (.ok status)]) job) :
    Answered job hub journal task status where
  last := last.trans ⟨fun all => ⟨before, all⟩, fun both => both.2⟩
  accounts := last.trans (followed.allEnded_next_iff before)
  late := fun all => absurd all before

/-- A report after which some task has not ended is answered so, and the job waits. -/
theorem Followed.waiting {account written : JobAccount} {accountant : Accountant}
    {metrics : Metrics} {task : String} {state : TaskState} (followed : Followed job hub journal)
    (kept : hub.accountant.account? job.id = some account)
    (rewritten : Rewritten hub.accountant accountant job.id written)
    (noted : Noted account written task state) (terminal : state.isTerminal = true)
    (uncounted : metrics.jobsFinished = hub.metrics.jobsFinished)
    (some : ¬ AllEnded (journal ++ [.reported job.id task (.ok .pending)]) job) :
    Answered job hub journal task .pending ∧
      Followed job { hub with accountant := accountant, metrics := metrics }
        (journal ++ [.reported job.id task (.ok .pending)]) := by
  constructor
  · apply followed.answered (followed.unended kept)
    apply iff_of_false
    · rintro ⟨⟩
    · exact some
  · exact followed.pending kept rewritten noted terminal uncounted some

/-- A report for a job without an account is ignored. -/
theorem Followed.ignored (followed : Followed job hub journal) (planned : job.tasks ≠ [])
    (gone : hub.accountant.account? job.id = none) (task : String) :
    Answered job hub journal task .ignored ∧
      Followed job (hub.count Metrics.eventIgnored)
        (journal ++ [.reported job.id task (.ok .ignored)]) := by
  have missing (other : String) : hub.accountant.task? job.id other = none := by
    rw [task?_eq, gone]
    rfl
  have first : job.taskId 0 ∈ job.taskIds :=
    Job.mem_taskIds.2 ⟨0, List.length_pos_iff.2 planned, rfl⟩
  have incomplete : ¬ ∀ other ∈ job.taskIds, ∃ record,
      hub.accountant.task? job.id other = some record ∧
        (record.state.isTerminal = true ∨ other = task) := by
    intro all
    rcases all _ first with ⟨record, found, _⟩
    rw [missing] at found
    cases found
  have same : AllEnded (journal ++ [.reported job.id task (.ok .ignored)]) job ↔
      AllEnded journal job := by
    constructor
    · intro all
      by_contra before
      exact incomplete ((followed.allEnded_next_iff before).1 all)
    · exact fun all index inside => (all index inside).append _
  constructor
  · constructor
    · apply iff_of_false
      · rintro ⟨⟩
      · exact fun both => both.1 (same.1 both.2)
    · apply iff_of_false
      · rintro ⟨⟩
      · exact incomplete
    · exact fun _ => rfl
  · constructor
    · exact followed.agree.settled (settled_count followed.agree.orderly job.id rfl) rfl
    · rcases followed.stored with ⟨last, found, plan, state⟩
      exact ⟨last, found, plan, state.trans same.symm⟩
    · exact followed.retired.trans same.symm
    · exact followed.declared
    · intro other record found
      rw [count, missing] at found
      cases found
    · intro all
      rw [finishedJobs_append, List.count_append, followed.finished (same.1 all)]
      rfl
    · intro some
      rw [finishedJobs_append, List.count_append, followed.unfinished fun all =>
        some (same.2 all)]
      rfl

/-- A report for a followed job is answered, and the job is followed further. -/
theorem Followed.report {completion : Completion} (followed : Followed job hub journal)
    (planned : job.tasks ≠ []) (own : completion.job = job.id) (now : Instant) :
    ∃ status, (hub.onCompletion completion now).2 = .ok status ∧
      Answered job hub journal completion.task status ∧
      Followed job (hub.onCompletion completion now).1
        (journal ++ [.reported job.id completion.task (.ok status)]) := by
  have orderly := followed.agree.orderly
  cases kept : hub.accountant.account? job.id with
  | none =>
      have ignored := followed.ignored planned kept completion.task
      rw [onCompletion_of_gone orderly.free (own ▸ kept)]
      exact ⟨.ignored, rfl, ignored⟩
  | some account =>
      have before := followed.unended kept
      have terminal := completion.verdict.taskState_isTerminal
      have step := settled_onCompletion orderly completion now
      rcases followed.stored with ⟨last, found, plan, _⟩
      rcases onCompletion_of_kept orderly (own ▸ kept) now with
        ⟨accountant, metrics, written, same, rewritten, noted, uncounted⟩
      rw [same] at step ⊢
      rw [own] at rewritten step ⊢
      have middle := (settled_of_noted orderly kept rewritten noted uncounted).touched.orderly
      have ends := finishing middle.sound middle.filed job.id now
      generalize ({ hub with accountant := accountant, metrics := metrics }.finishIfComplete
        job.id now).1 = after at step ends ⊢
      generalize ({ hub with accountant := accountant, metrics := metrics }.finishIfComplete
        job.id now).2 = answer at step ends ⊢
      have complete {answer : Except CompletionError CompletionStatus} :
          written.allTerminal = true ∧ job.tasks.length ≤ written.tasks.size ↔
            AllEnded (journal ++ [.reported job.id completion.task answer]) job := by
        rcases followed.marked kept noted terminal with ⟨declared, ended, sent⟩
        exact complete_iff declared ended sent
      have waits (incomplete : ¬ (written.allTerminal = true ∧
          job.tasks.length ≤ written.tasks.size)) :=
        followed.waiting kept rewritten noted terminal uncounted (mt complete.2 incomplete)
      cases ends with
      | ignored gone =>
          rw [rewritten.is] at gone
          cases gone
      | outstanding stands running =>
          rw [rewritten.is] at stands
          cases stands
          exact ⟨.pending, rfl, waits fun both => by simp [running] at both⟩
      | partly stands _ read few =>
          rw [rewritten.is] at stands
          cases stands
          rw [found] at read
          cases read
          rw [plan] at few
          exact ⟨.pending, rfl, waits fun both => Nat.not_lt_of_le both.2 few⟩
      | refused _ _ missing => exact absurd found (missing last)
      | finished stands ended read enough restated closed =>
          rw [rewritten.is] at stands
          cases stands
          rw [found] at read
          cases read
          rw [plan] at enough
          refine ⟨.finished, rfl, ?_, ?_⟩
          · exact followed.answered before (iff_of_true rfl (complete.1 ⟨ended, enough⟩))
          · exact followed.finish before found (followed.agree.settled step rfl) restated closed
              (complete.1 ⟨ended, enough⟩)

/-! ## Every run -/

/-- A call that may touch another job only, or none. -/
theorem Followed.foreign {subject : Option String} (followed : Followed job hub journal)
    (step : Performed hub after subject noted) (differ : subject ≠ some job.id) :
    Followed job after (journal ++ noted) := by
  rcases step.apart job.id differ with ⟨jobs, tasks⟩
  rcases step.aside job.id differ with ⟨retired, quiet, silent⟩
  exact followed.untouched (followed.agree.performed step) silent quiet jobs retired tasks

/-- Any call on the way leaves the job followed. -/
theorem Followed.perform (followed : Followed job hub journal) (planned : job.tasks ≠ [])
    (call : Call) (path : call.OnPath job) (now : Instant) :
    Followed job (call.perform now hub).1 (journal ++ (call.perform now hub).2) := by
  have orderly := followed.agree.orderly
  by_cases own : call.job? = some job.id
  · rcases followed.stored with ⟨last, found, plan, _⟩
    have names : last.taskIds = job.taskIds := by
      have same : last.id = job.id := orderly.filed found
      rw [Job.taskIds, Job.taskIds, plan]
      exact List.map_congr_left fun index _ => by rw [Job.taskId, Job.taskId, same]
    cases call with
    | dispatch id task =>
        cases own
        apply followed.handed (handed_dispatch orderly job.id task now)
        intro name sent
        rw [List.mem_singleton.1 (dispatchSent_subset hub job.id task now sent)]
        exact path rfl
    | dispatchJob id =>
        cases own
        apply followed.handed (handed_dispatchJob orderly job.id now)
        rw [← names]
        exact dispatchJobSent_subset hub found now
    | startJob id =>
        cases own
        apply followed.handed (handed_startJob orderly job.id now)
        rw [← names]
        exact startJobSent_subset orderly found now
    | stopJob id =>
        cases own
        exact followed.handed (handed_stopJob orderly job.id now) (List.nil_subset _)
    | report completion =>
        have own : completion.job = job.id := Option.some.inj own
        rcases followed.report planned own now with ⟨status, answer, _, next⟩
        rw [Call.perform]
        dsimp only
        rw [answer, own]
        exact next
    | reconcile id => exact absurd (Option.some.inj own) path
    | removeJob id => exact absurd (Option.some.inj own) path
    | record completion => cases own
    | takeTask node => cases own
    | closeNode node => cases own
  · exact followed.foreign (performed orderly call now) own

theorem Followed.run (planned : job.tasks ≠ []) (calls : List (Call × Instant)) (hub : Hub)
    (journal : List Entry) (followed : Followed job hub journal)
    (path : ∀ step ∈ calls, step.1.OnPath job) :
    Followed job (run calls hub).1 (journal ++ (run calls hub).2) := by
  induction calls generalizing hub journal with
  | nil =>
      rw [Hub.run, List.append_nil]
      exact followed
  | cons step rest ih =>
      have next := followed.perform planned step.1 (path step List.mem_cons_self) step.2
      rw [Hub.run, ← List.append_assoc]
      exact ih _ _ next fun other mem => path other (List.mem_cons_of_mem _ mem)

/-- A stored job with tasks of which nothing was handed out yet. -/
theorem followed_of_unsent {last : Job} (agree : Journaled hub journal)
    (found : hub.ledger.job? job.id = .ok (some last)) (plan : last.tasks = job.tasks)
    (unfinished : last.state ≠ .finished) (planned : job.tasks ≠ [])
    (unsent : ∀ task, (job.id, task) ∉ sentTasks journal)
    (active : hub.accountant.retired.contains job.id = false)
    (silent : job.id ∉ finishedJobs journal) : Followed job hub journal := by
  have some : ¬ AllEnded journal job := by
    intro all
    exact unsent _ (all 0 (List.length_pos_iff.2 planned)).sent
  have missing (task : String) : hub.accountant.task? job.id task = none := by
    rw [← hasTask_eq_false_iff, ← Bool.not_eq_true]
    exact mt (agree.accounted job.id task) (unsent task)
  constructor
  · exact agree
  · exact ⟨last, found, plan, iff_of_false unfinished some⟩
  · rw [active]
    exact iff_of_false Bool.false_ne_true some
  · intro task present
    exact absurd (agree.accounted job.id task present) (unsent task)
  · intro task record found
    rw [missing] at found
    cases found
  · exact fun all => absurd all some
  · exact fun _ => List.count_eq_zero.2 silent

/-- A stored job of a hub without accounts. -/
theorem followed_nil (fresh : hub.accountant = .empty) (filed : hub.ledger.Filed)
    (stored : hub.ledger.job? job.id = .ok (some job)) (unfinished : job.state ≠ .finished)
    (planned : job.tasks ≠ []) : Followed job hub [] := by
  apply followed_of_unsent (journaled_nil fresh filed) stored rfl unfinished planned
  · rintro task ⟨⟩
  · rw [fresh]
    rfl
  · rintro ⟨⟩

/-- What a run owes for a job: it is finished once, when the last of its tasks has ended. -/
structure FinishesOnce (job : Job) (start hub : Hub) (journal : List Entry) : Prop where
  /-- The job is declared finished at most once. -/
  once : (finishedJobs journal).count job.id ≤ 1
  /-- It is declared finished exactly if every task was handed to a node and reported on after. -/
  complete : job.id ∈ finishedJobs journal ↔ AllEnded journal job
  /-- Every report for it gets the answer that is due. -/
  answers : ∀ completion now, completion.job = job.id → ∃ status,
    (hub.onCompletion completion now).2 = .ok status ∧
      Answered job hub journal completion.task status
  /-- It is announced as often as it is declared finished. -/
  announced : hub.announced = start.announced ++ finishedJobs journal
  /-- It is counted as often as it is declared finished. -/
  counted : hub.metrics.jobsFinished =
    start.metrics.jobsFinished + UInt64.ofNat (finishedJobs journal).length
  /-- It is stored with its plan, as finished exactly once all of its tasks have ended. -/
  stored : ∃ last, hub.ledger.job? job.id = .ok (some last) ∧ last.tasks = job.tasks ∧
    (last.state = .finished ↔ AllEnded journal job)
  retired : hub.accountant.retired.contains job.id = true ↔ AllEnded journal job

/-- From a hub without accounts every run of calls on the way finishes a stored job once. -/
theorem finishesOnce_run (job : Job) (hub : Hub) (fresh : hub.accountant = .empty)
    (filed : hub.ledger.Filed) (stored : hub.ledger.job? job.id = .ok (some job))
    (unfinished : job.state ≠ .finished) (planned : job.tasks ≠ [])
    (calls : List (Call × Instant)) (path : ∀ step ∈ calls, step.1.OnPath job) :
    FinishesOnce job hub (run calls hub).1 (run calls hub).2 := by
  have start := followed_nil fresh filed stored unfinished planned
  have followed : Followed job (run calls hub).1 (run calls hub).2 :=
    start.run planned calls hub [] path
  have metrics := announced_run calls hub start.agree.orderly
  by_cases all : AllEnded (run calls hub).2 job
  · have one := followed.finished all
    constructor
    · exact Nat.le_of_eq one
    · exact iff_of_true (List.count_pos_iff.1 (by omega)) all
    · intro completion now own
      rcases followed.report planned own now with ⟨status, answer, due, _⟩
      exact ⟨status, answer, due⟩
    · exact metrics.1
    · exact metrics.2
    · exact followed.stored
    · exact followed.retired
  · have zero := followed.unfinished all
    constructor
    · omega
    · exact iff_of_false (List.count_eq_zero.1 zero) all
    · intro completion now own
      rcases followed.report planned own now with ⟨status, answer, due, _⟩
      exact ⟨status, answer, due⟩
    · exact metrics.1
    · exact metrics.2
    · exact followed.stored
    · exact followed.retired

theorem finishesOnce_pairCalls :
    pairHub.accountant = .empty ∧ pairHub.ledger.Filed ∧
      pairHub.ledger.job? twoLinks.id = .ok (some twoLinks) ∧ twoLinks.state ≠ .finished ∧
      twoLinks.tasks ≠ [] ∧ (∀ step ∈ pairCalls, step.1.OnPath twoLinks) ∧
      FinishesOnce twoLinks pairHub (run pairCalls pairHub).1 (run pairCalls pairHub).2 := by
  have unfinished : twoLinks.state ≠ .finished := by decide
  have planned : twoLinks.tasks ≠ [] := by decide
  have path : ∀ step ∈ pairCalls, step.1.OnPath twoLinks := by simp [pairCalls, Call.OnPath]
  exact ⟨rfl, pairHub_filed, pairHub_stored, unfinished, planned, path,
    finishesOnce_run twoLinks pairHub rfl pairHub_filed pairHub_stored unfinished planned pairCalls
      path⟩

end Hub

end MediaHarvest
