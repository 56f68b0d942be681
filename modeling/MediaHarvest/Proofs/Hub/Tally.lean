import MediaHarvest.Proofs.Accounting.Marks
import MediaHarvest.Proofs.Hub.Completion
import MediaHarvest.Proofs.Ledger.Alike
import Mathlib.Data.List.Dedup

/-!
# What reports come to

Reports come in in any order, and more than once.  Which tasks they end and which jobs they finish
depends only on which tasks they name: `Tallied` describes the hub after reports by the hub at the
start and the names.  A report that is ignored is one that ends no task, so there are as many of
those as there are reports, less the tasks that were ended.
-/

namespace MediaHarvest

open Ledger Accountant

/-- The job and the task that a report names. -/
def Completion.subject (completion : Completion) : String × String :=
  (completion.job, completion.task)

namespace Hub

variable {start hub : Hub} {heard heard' : List Completion} {completion : Completion}
  {ended : List String} {id : String} {now : Instant}

/-! ## Tasks and jobs that reports end -/

/-- Whether a task of a job is named. -/
def names (heard : List Completion) (id task : String) : Bool :=
  decide ((id, task) ∈ heard.map Completion.subject)

/-- Whether a task is accounted and has not ended. -/
def awaits (hub : Hub) (subject : String × String) : Bool :=
  (hub.accountant.task? subject.1 subject.2).any fun record => !record.state.isTerminal

/-- Whether a task is accounted with a node. -/
def isWith (hub : Hub) (node : String) (subject : String × String) : Bool :=
  (hub.accountant.task? subject.1 subject.2).any fun record => record.node = node

/-- Whether a job is accounted whole and all its tasks have ended. -/
def isComplete (hub : Hub) (id : String) : Bool :=
  match hub.accountant.account? id, hub.ledger.job? id with
  | some account, .ok (some job) =>
      decide (job.tasks.length ≤ account.tasks.size) && account.allTerminal
  | _, _ => false

/-- Whether a job is accounted whole and all its tasks have ended or are named. -/
def completes (start : Hub) (heard : List Completion) (id : String) : Bool :=
  match start.accountant.account? id, start.ledger.job? id with
  | some account, .ok (some job) =>
      decide (job.tasks.length ≤ account.tasks.size) &&
        account.tasks.entries.all fun entry => entry.2.state.isTerminal || names heard id entry.1
  | _, _ => false

/-- The tasks that reports end, each once. -/
def tasksEnded (start : Hub) (heard : List Completion) : List (String × String) :=
  ((heard.map Completion.subject).filter start.awaits).dedup

/-- The jobs that reports finish, each once. -/
def jobsFinished (start : Hub) (heard : List Completion) : List String :=
  ((heard.map Completion.job).filter (start.completes heard)).dedup

theorem names_cons (completion : Completion) (heard : List Completion) (id task : String) :
    names (completion :: heard) id task =
      (decide ((id, task) = completion.subject) || names heard id task) := by
  simp [names]

theorem names_of_perm (perm : heard.Perm heard') : names heard = names heard' := by
  funext id task
  exact decide_eq_decide.2 (perm.map _).mem_iff

theorem completes_of_perm (perm : heard.Perm heard') :
    start.completes heard = start.completes heard' := by
  funext id
  rw [completes, names_of_perm perm]
  rfl

theorem tasksEnded_perm (perm : heard.Perm heard') :
    (start.tasksEnded heard).Perm (start.tasksEnded heard') :=
  ((perm.map _).filter _).dedup

theorem jobsFinished_perm (perm : heard.Perm heard') :
    (start.jobsFinished heard).Perm (start.jobsFinished heard') := by
  rw [jobsFinished, completes_of_perm perm]
  exact ((perm.map _).filter _).dedup

/-- A report that is the first one on an outstanding task ends it. -/
theorem tasksEnded_of_news (awaited : start.awaits completion.subject = true)
    (new : completion.subject ∉ heard.map Completion.subject) :
    start.tasksEnded (completion :: heard) = completion.subject :: start.tasksEnded heard := by
  rw [tasksEnded, List.map_cons, List.filter_cons_of_pos awaited, List.dedup_cons_of_notMem]
  · rfl
  · exact fun mem => new (List.mem_of_mem_filter mem)

/-- Any other report ends nothing. -/
theorem tasksEnded_of_stale
    (stale : start.awaits completion.subject = true →
      completion.subject ∈ heard.map Completion.subject) :
    start.tasksEnded (completion :: heard) = start.tasksEnded heard := by
  rw [tasksEnded, List.map_cons]
  by_cases awaited : start.awaits completion.subject = true
  · rw [List.filter_cons_of_pos awaited, List.dedup_cons_of_mem]
    · rfl
    · exact List.mem_filter.2 ⟨stale awaited, awaited⟩
  · rw [List.filter_cons_of_neg awaited]
    rfl

theorem completes_cons_of_ne (differ : completion.job ≠ id) :
    start.completes (completion :: heard) id = start.completes heard id := by
  have same (task : String) : names (completion :: heard) id task = names heard id task := by
    have other : (id, task) ≠ completion.subject :=
      fun both => differ (congrArg Prod.fst both).symm
    rw [names_cons, decide_eq_false other, Bool.false_or]
  simp only [completes, same]

/-- What is complete stays complete when there are more reports. -/
theorem completes_cons (complete : start.completes heard id = true) (completion : Completion) :
    start.completes (completion :: heard) id = true := by
  rw [completes] at complete ⊢
  split
  · next account job kept found =>
    rw [kept, found] at complete
    simp only [Bool.and_eq_true, List.all_eq_true, Bool.or_eq_true] at complete ⊢
    refine ⟨complete.1, fun entry mem => ?_⟩
    rw [names_cons, Bool.or_eq_true]
    exact (complete.2 entry mem).imp_right .inr
  · next nothing =>
    split at complete
    · next account job kept found => exact absurd found (nothing account job kept)
    · cases complete

/-- Of a job that is complete, every task that was awaited is named. -/
theorem named_of_completes {task : String} (complete : start.completes heard id = true)
    (awaited : start.awaits (id, task) = true) : (id, task) ∈ heard.map Completion.subject := by
  rw [completes] at complete
  split at complete
  · next account job kept found =>
    rw [awaits, task?_of_kept kept, Option.any_eq_true] at awaited
    obtain ⟨record, stood, running⟩ := awaited
    have all := List.all_eq_true.1 ((Bool.and_eq_true _ _).mp complete).2
    have ends := all (task, record) (SortedMap.get?_eq_some_iff.1 stood)
    rw [Bool.not_eq_true'] at running
    rw [running, Bool.false_or] at ends
    exact of_decide_eq_true ends
  · cases complete

theorem mem_jobsFinished :
    id ∈ start.jobsFinished heard ↔
      id ∈ heard.map Completion.job ∧ start.completes heard id = true := by
  rw [jobsFinished, List.mem_dedup, List.mem_filter]

theorem nodup_jobsFinished (start : Hub) (heard : List Completion) :
    (start.jobsFinished heard).Nodup :=
  List.nodup_dedup _

/-- A report finishes its own job, if that is complete with it and was not before. -/
theorem jobsFinished_of_news
    (complete : start.completes (completion :: heard) completion.job = true)
    (new : completion.job ∉ start.jobsFinished heard) :
    (start.jobsFinished (completion :: heard)).Perm
      (completion.job :: start.jobsFinished heard) := by
  refine (List.perm_ext_iff_of_nodup (nodup_jobsFinished ..)
    (List.nodup_cons.2 ⟨new, nodup_jobsFinished ..⟩)).2 fun id => ?_
  rw [List.mem_cons, mem_jobsFinished, mem_jobsFinished, List.map_cons, List.mem_cons]
  by_cases same : id = completion.job
  · subst same
    simp [complete]
  · rw [completes_cons_of_ne (Ne.symm same)]
    simp [same]

/-- Otherwise it finishes nothing. -/
theorem jobsFinished_of_stale
    (stale : start.completes (completion :: heard) completion.job = true →
      completion.job ∈ start.jobsFinished heard) :
    (start.jobsFinished (completion :: heard)).Perm (start.jobsFinished heard) := by
  refine (List.perm_ext_iff_of_nodup (nodup_jobsFinished ..) (nodup_jobsFinished ..)).2
    fun id => ?_
  by_cases same : id = completion.job
  · subst same
    rw [mem_jobsFinished]
    constructor
    · exact fun complete => stale complete.2
    · intro finished
      have before := (mem_jobsFinished.1 finished).2
      exact ⟨List.mem_map_of_mem List.mem_cons_self, completes_cons before completion⟩
  · rw [mem_jobsFinished, mem_jobsFinished, completes_cons_of_ne (Ne.symm same)]
    simp [same]

/-! ## The question whether a job is finished -/

/-- A job that is not complete is left as it is. -/
theorem finishIfComplete_of_incomplete (incomplete : hub.isComplete id = false) (now : Instant) :
    (hub.finishIfComplete id now).1 = hub := by
  rw [isComplete] at incomplete
  rw [finishIfComplete]
  cases kept : hub.accountant.account? id with
  | none => rfl
  | some account =>
      dsimp only
      rw [kept] at incomplete
      cases ended : account.allTerminal with
      | false => rfl
      | true =>
          cases planned : hub.plannedCount id account with
          | error error => rfl
          | ok count =>
              by_cases few : account.tasks.size < count
              · simp [few]
              · have missing (job : Job) : hub.ledger.job? id ≠ .ok (some job) := by
                  intro found
                  rw [found] at incomplete
                  rw [plannedCount, found] at planned
                  cases planned
                  simp [ended, Nat.not_lt.1 few] at incomplete
                obtain ⟨error, refused⟩ := finish_of_missing missing now
                simp [few, refused]

/-- A complete job is written down as finished, retired, counted and announced. -/
theorem finishIfComplete_of_complete (complete : hub.isComplete id = true) (now : Instant) :
    ∃ job, hub.ledger.job? id = .ok (some job) ∧
      (hub.finishIfComplete id now).1 = { hub with
        ledger := hub.ledger.putJob (job.withState .finished now)
        accountant := { hub.accountant with
          jobs := hub.accountant.jobs.erase id
          retired := hub.accountant.retired.insert id () }
        metrics := hub.metrics.jobFinished
        announced := hub.announced ++ [id] } := by
  rw [isComplete] at complete
  split at complete
  · next account job kept found =>
    obtain ⟨enough, ended⟩ := (Bool.and_eq_true _ _).mp complete
    have enough : ¬ account.tasks.size < job.tasks.length :=
      Nat.not_lt.2 (of_decide_eq_true enough)
    have stored : hub.ledger.setJobState id .finished now =
        .ok (hub.ledger.putJob (job.withState .finished now), job.withState .finished now) := by
      rw [setJobState, job_eq_ok_iff.2 found]
      rfl
    have finishes : hub.finish id now = .ok { hub with
        ledger := hub.ledger.putJob (job.withState .finished now)
        accountant := { hub.accountant with
          jobs := hub.accountant.jobs.erase id
          retired := hub.accountant.retired.insert id () }
        metrics := hub.metrics.jobFinished
        announced := hub.announced ++ [id] } := by
      rw [finish, stored, ok_bind, retire_of_ended kept ended]
      rfl
    refine ⟨job, found, ?_⟩
    rw [finishIfComplete, kept]
    dsimp only
    rw [ended, plannedCount, found]
    simp only [ok_bind, pure_eq_ok, Bool.not_true, Bool.false_eq_true, if_false, if_neg enough,
      finishes]
  · cases complete

/-- Of the counters, the question whether a job is finished changes that of finished jobs only. -/
theorem metrics_finishIfComplete (hub : Hub) (id : String) (now : Instant) :
    ∃ finished, (hub.finishIfComplete id now).1.metrics =
      { hub.metrics with jobsFinished := finished } := by
  cases complete : hub.isComplete id with
  | false =>
      rw [finishIfComplete_of_incomplete complete]
      exact ⟨_, rfl⟩
  | true =>
      rcases finishIfComplete_of_complete complete now with ⟨job, _, after⟩
      rw [after]
      exact ⟨_, rfl⟩

/-- A report that ends its task. -/
theorem onCompletion_of_news (free : hub.accountant.holder = none) {account : JobAccount}
    {record : TaskRecord} (kept : hub.accountant.account? completion.job = some account)
    (found : account.tasks.get? completion.task = some record)
    (running : record.state.isTerminal = false) (now : Instant) :
    hub.onCompletion completion now =
      { hub with
        accountant := (hub.accountant.setAccount completion.job { account with
          tasks := account.tasks.insert completion.task
            { record with state := completion.taskState } }).release record.node 1
        }.finishIfComplete completion.job now := by
  rw [onCompletion, awaitAccount_of_free free, kept]
  dsimp only
  rw [applyState, apply_of_running kept found running]

/-- A report that ends nothing although its job is accounted. -/
theorem onCompletion_of_stale (free : hub.accountant.holder = none) {account : JobAccount}
    (kept : hub.accountant.account? completion.job = some account)
    (stale : ∀ record, account.tasks.get? completion.task = some record →
      record.state.isTerminal = true) (now : Instant) :
    hub.onCompletion completion now =
      (hub.count Metrics.eventIgnored).finishIfComplete completion.job now := by
  obtain ⟨same, differ⟩ := apply_of_stale kept stale completion.taskState
  rw [onCompletion, awaitAccount_of_free free, kept]
  dsimp only [applyState]
  generalize hub.accountant.apply completion.job completion.task completion.taskState = result
    at same differ ⊢
  obtain ⟨accountant, recorded⟩ := result
  dsimp only at same differ ⊢
  subst same
  cases recorded with
  | updated => exact absurd rfl differ
  | duplicate => rfl
  | unknown => rfl

/-! ## The hub after reports -/

/-- The hub after reports, some of which finished jobs. -/
structure Tallied (start : Hub) (heard : List Completion) (ended : List String) (hub : Hub) :
    Prop where
  free : hub.accountant.holder = none
  /-- Every job stands under its own name. -/
  filed : hub.ledger.Filed
  /-- The accounts of finished jobs are closed, and no other one is opened. -/
  gone : ∀ id, id ∈ ended ∨ start.accountant.account? id = none →
    hub.accountant.account? id = none
  /-- In all other accounts the named tasks have ended. -/
  kept : ∀ id account, id ∉ ended → start.accountant.account? id = some account →
    ∃ later, hub.accountant.account? id = some later ∧ account.Marked (names heard id) later
  retired : ∀ id, hub.accountant.retired.contains id =
    (decide (id ∈ ended) || start.accountant.retired.contains id)
  loads : ∀ node, hub.accountant.load node =
    start.accountant.load node - (start.tasksEnded heard).countP (start.isWith node)
  /-- The finished jobs are stored as such, and all others as they were. -/
  jobs : ∀ key, seen Job.undated (fetch Job.codec hub.ledger.jobs key) =
    seen (if key ∈ ended.map jobKey then fun job => job.withState .finished .epoch else Job.undated)
      (fetch Job.codec start.ledger.jobs key)
  ignored : hub.metrics.eventsIgnored + UInt64.ofNat (start.tasksEnded heard).length =
    start.metrics.eventsIgnored + UInt64.ofNat heard.length
  finished : hub.metrics.jobsFinished =
    start.metrics.jobsFinished + UInt64.ofNat ended.length
  announced : hub.announced.Perm (start.announced ++ ended)

theorem tallied_nil (free : start.accountant.holder = none) (filed : start.ledger.Filed) :
    Tallied start [] [] start where
  free := free
  filed := filed
  gone := fun id none => none.resolve_left (List.not_mem_nil)
  kept := fun id account _ kept => ⟨account, kept, account.marked_refl⟩
  retired := fun id => by simp
  loads := fun node => rfl
  jobs := fun key => rfl
  ignored := rfl
  finished := by simp
  announced := by rw [List.append_nil]

/-- Tasks named at the end of a list of reports. -/
theorem names_of_subject (heard : List Completion) (id task : String) :
    names heard id task = true ↔ (id, task) ∈ heard.map Completion.subject :=
  decide_eq_true_iff

namespace Tallied

/-- The account of a job that is not finished. -/
theorem origin (tallied : Tallied start heard ended hub) {later : JobAccount}
    (still : hub.accountant.account? id = some later) :
    id ∉ ended ∧ ∃ account, start.accountant.account? id = some account ∧
      account.Marked (names heard id) later := by
  have unfinished : id ∉ ended := by
    intro mem
    rw [tallied.gone id (.inl mem)] at still
    cases still
  cases kept : start.accountant.account? id with
  | none =>
      rw [tallied.gone id (.inr kept)] at still
      cases still
  | some account =>
      obtain ⟨other, same, marked⟩ := tallied.kept id account unfinished kept
      cases still.symm.trans same
      exact ⟨unfinished, account, rfl, marked⟩

/-- A job that is not finished is stored as it was. -/
theorem stored (tallied : Tallied start heard ended hub) (unfinished : id ∉ ended) :
    SameView Job.undated Job.undated (hub.ledger.job? id) (start.ledger.job? id) := by
  have other : jobKey id ∉ ended.map jobKey := by
    intro mem
    obtain ⟨name, finished, same⟩ := List.mem_map.1 mem
    exact unfinished (jobKey_inj.1 same ▸ finished)
  have same := tallied.jobs (jobKey id)
  rw [if_neg other] at same
  exact seen_eq_iff.1 same

/-- A job that is not finished is complete if the reports complete it. -/
theorem isComplete_eq (tallied : Tallied start heard ended hub) (unfinished : id ∉ ended) :
    hub.isComplete id = start.completes heard id := by
  rw [isComplete, completes]
  have stored := tallied.stored unfinished
  cases kept : start.accountant.account? id with
  | none => rw [tallied.gone id (.inr kept)]
  | some account =>
      obtain ⟨later, still, marked⟩ := tallied.kept id account unfinished kept
      rw [still]
      generalize hub.ledger.job? id = read at stored ⊢
      generalize start.ledger.job? id = read' at stored ⊢
      cases stored with
      | unreadable error => rfl
      | nothing => rfl
      | @found job job' same =>
          have plan : job.tasks = job'.tasks := by
            have shown := congrArg Job.tasks same
            exact shown
          dsimp only
          rw [marked.size, marked.allTerminal_eq, plan]

/-- A report that ends nothing is counted and ignored. -/
theorem ignore (tallied : Tallied start heard ended hub)
    (stale : start.awaits completion.subject = true →
      completion.subject ∈ heard.map Completion.subject) :
    Tallied start (completion :: heard) ended (hub.count Metrics.eventIgnored) where
  free := tallied.free
  filed := tallied.filed
  gone := tallied.gone
  kept := by
    intro id account unfinished kept
    obtain ⟨later, still, marked⟩ := tallied.kept id account unfinished kept
    refine ⟨later, still, marked.rename fun task record stood => ?_⟩
    rw [names_cons]
    by_cases named : (id, task) = completion.subject
    · cases running : record.state.isTerminal with
      | true => exact .inr rfl
      | false =>
          have awaited : start.awaits completion.subject = true := by
            rw [← named, awaits, task?_of_kept kept, stood]
            simp [running]
          rw [(names_of_subject ..).2 (named ▸ stale awaited), Bool.or_true]
          exact .inl rfl
    · rw [decide_eq_false named, Bool.false_or]
      exact .inl rfl
  retired := tallied.retired
  loads := by
    rw [tasksEnded_of_stale stale]
    exact tallied.loads
  jobs := tallied.jobs
  ignored := by
    have before := tallied.ignored
    rw [tasksEnded_of_stale stale]
    show hub.metrics.eventsIgnored + 1 + _ = _
    rw [List.length_cons, UInt64.ofNat_add, ← UInt64.add_assoc, ← before]
    ac_rfl
  finished := tallied.finished
  announced := tallied.announced

/-- A report that ends its task. -/
theorem note (tallied : Tallied start heard ended hub) {later : JobAccount} {record : TaskRecord}
    (still : hub.accountant.account? completion.job = some later)
    (found : later.tasks.get? completion.task = some record)
    (running : record.state.isTerminal = false) :
    Tallied start (completion :: heard) ended { hub with
      accountant := (hub.accountant.setAccount completion.job { later with
        tasks := later.tasks.insert completion.task
          { record with state := completion.taskState } }).release record.node 1 } := by
  obtain ⟨unfinished, account, kept, marked⟩ := tallied.origin still
  obtain ⟨former, stood, marks⟩ := marked.origin found
  have ends := marked.isTerminal_of_found stood found
  rw [running] at ends
  obtain ⟨awaiting, unnamed⟩ := Bool.or_eq_false_iff.1 ends.symm
  have awaited : start.awaits completion.subject = true := by
    rw [awaits, Completion.subject, task?_of_kept kept, stood]
    simp [awaiting]
  have new : completion.subject ∉ heard.map Completion.subject := by
    intro mem
    rw [(names_of_subject ..).2 mem] at unnamed
    cases unnamed
  let written : JobAccount := { later with
    tasks := later.tasks.insert completion.task { record with state := completion.taskState } }
  have isOpen : written.removed = false := (removed_of_kept still : later.removed = false)
  have accounts (other : String) :
      ((hub.accountant.setAccount completion.job written).release record.node 1).account? other =
        if other = completion.job then some written else hub.accountant.account? other :=
    account?_of_insert (release_jobs ..) isOpen other
  constructor
  · exact (release_holder ..).trans tallied.free
  · exact tallied.filed
  · intro other closed
    have before := tallied.gone other closed
    rw [accounts, if_neg]
    · exact before
    · rintro rfl
      rw [still] at before
      cases before
  · intro other account' unfinished' kept'
    dsimp only
    rw [accounts]
    by_cases same : other = completion.job
    · subst same
      cases kept.symm.trans kept'
      refine ⟨_, if_pos rfl, marked.note found (Verdict.taskState_isTerminal _) ?_ ?_⟩
      · rw [names_cons, Completion.subject]
        simp
      · intro task differ
        rw [names_cons, Completion.subject]
        simp [differ]
    · obtain ⟨later', still', marked'⟩ := tallied.kept other account' unfinished' kept'
      refine ⟨later', (if_neg same).trans still', marked'.rename fun task _ _ => .inl ?_⟩
      rw [names_cons, Completion.subject]
      simp [same]
  · intro other
    exact (congrArg (fun map => SortedMap.contains map other) (release_retired ..)).trans
      (tallied.retired other)
  · intro node
    have before := tallied.loads node
    have own : start.isWith node completion.subject = decide (record.node = node) := by
      have same : record.node = former.node := by simpa using congrArg TaskRecord.node marks
      rw [isWith, Completion.subject, task?_of_kept kept, stood, Option.any_some, same]
    rw [load_release, tasksEnded_of_news awaited new, List.countP_cons, own]
    show hub.accountant.load node - _ = _
    rw [before, Nat.sub_sub]
    simp
  · exact tallied.jobs
  · have before := tallied.ignored
    rw [tasksEnded_of_news awaited new, List.length_cons, List.length_cons, UInt64.ofNat_add,
      UInt64.ofNat_add, ← UInt64.add_assoc, ← UInt64.add_assoc, before]
  · exact tallied.finished
  · exact tallied.announced

/-- A job that is complete is finished. -/
theorem finish (tallied : Tallied start heard ended hub) (unfinished : id ∉ ended)
    (complete : hub.isComplete id = true) (now : Instant) :
    Tallied start heard (id :: ended) (hub.finishIfComplete id now).1 := by
  obtain ⟨job, found, after⟩ := finishIfComplete_of_complete complete now
  have whole : (job.withState .finished now).limits.Whole :=
    (whole_of_job? found : job.limits.Whole)
  have named : (job.withState .finished now).id = id := (tallied.filed found : job.id = id)
  rw [after]
  constructor
  · exact tallied.free
  · exact tallied.filed.putJob whole
  · intro other closed
    dsimp only
    rw [account?_of_erase rfl]
    by_cases same : other = id
    · rw [if_pos same]
    · rw [if_neg same]
      refine tallied.gone other (closed.imp_left fun mem => ?_)
      exact (List.mem_cons.1 mem).resolve_left same
  · intro other account open' kept
    dsimp only
    obtain ⟨differ, unfinished⟩ := List.ne_and_not_mem_of_not_mem_cons open'
    rw [account?_of_erase rfl, if_neg differ]
    exact tallied.kept other account unfinished kept
  · intro other
    have before := tallied.retired other
    rw [SortedMap.contains] at before ⊢
    dsimp only
    rw [SortedMap.get?_insert]
    by_cases same : other = id
    · simp [same]
    · rw [if_neg same, before]
      simp [same]
  · exact tallied.loads
  · intro key
    dsimp only [putJob]
    rw [fetch_insert (Job.codec_readsBack whole), named, List.map_cons]
    by_cases own : key = jobKey id
    · subst own
      have stored := tallied.stored unfinished
      rw [found] at stored
      rw [if_pos rfl, if_pos List.mem_cons_self, ← job?]
      generalize start.ledger.job? id = read at stored ⊢
      cases stored with
      | found same =>
          have shown := congrArg (fun job : Job => job.withState .finished .epoch) same
          exact congrArg (Except.ok ∘ some) shown
    · rw [if_neg own, tallied.jobs key]
      congr 1
      simp [own]
  · exact tallied.ignored
  · show hub.metrics.jobsFinished + 1 = _
    rw [tallied.finished, List.length_cons, UInt64.ofNat_add, UInt64.add_assoc]
    rfl
  · have last : (hub.announced ++ [id]).Perm (start.announced ++ ended ++ [id]) :=
      tallied.announced.append_right [id]
    rw [List.append_assoc] at last
    exact last.trans ((List.perm_append_singleton id ended).append_left _)

/-- A job with no account is one that is finished, or had none at the start. -/
theorem lost (tallied : Tallied start heard ended hub)
    (gone : hub.accountant.account? id = none) :
    id ∈ ended ∨ start.accountant.account? id = none := by
  by_cases finished : id ∈ ended
  · exact .inl finished
  · cases kept : start.accountant.account? id with
    | none => exact .inr rfl
    | some account =>
        obtain ⟨later, still, _⟩ := tallied.kept id account finished kept
        rw [gone] at still
        cases still

/-- A task of an account that has ended now, but had not at the start, was named. -/
theorem named (tallied : Tallied start heard ended hub) {later : JobAccount} {task : String}
    (still : hub.accountant.account? id = some later)
    (ends : ∀ record, later.tasks.get? task = some record → record.state.isTerminal = true)
    (awaited : start.awaits (id, task) = true) : (id, task) ∈ heard.map Completion.subject := by
  obtain ⟨_, account, kept, marked⟩ := tallied.origin still
  rw [awaits, task?_of_kept kept, Option.any_eq_true] at awaited
  obtain ⟨former, stood, running⟩ := awaited
  have present : later.tasks.contains task = true := by
    rw [marked.contains, SortedMap.contains, stood]
    rfl
  obtain ⟨record, found⟩ := Option.isSome_iff_exists.1 present
  have same := marked.isTerminal_of_found stood found
  rw [ends record found] at same
  rw [Bool.not_eq_true'] at running
  rw [running, Bool.false_or] at same
  exact (names_of_subject ..).1 same.symm

/-- A report on a job without an account is tallied. -/
theorem onCompletion_of_gone (tallied : Tallied start heard ended hub)
    (agree : ended.Perm (start.jobsFinished heard))
    (gone : hub.accountant.account? completion.job = none) (now : Instant) :
    Tallied start (completion :: heard) ended (hub.onCompletion completion now).1 ∧
      ended.Perm (start.jobsFinished (completion :: heard)) := by
  rw [Hub.onCompletion_of_gone tallied.free gone]
  rcases tallied.lost gone with finished | none
  · have complete := (mem_jobsFinished.1 (agree.mem_iff.1 finished)).2
    exact ⟨tallied.ignore (named_of_completes complete),
      agree.trans (jobsFinished_of_stale fun _ => agree.mem_iff.1 finished).symm⟩
  · refine ⟨tallied.ignore fun awaited => ?_, agree.trans (jobsFinished_of_stale ?_).symm⟩
    · rw [awaits, task?_eq, Completion.subject, none] at awaited
      cases awaited
    · intro complete
      rw [completes, none] at complete
      cases complete

/-- A report on an accounted job is noted, and then it is asked whether the job is finished. -/
theorem onCompletion_of_kept (tallied : Tallied start heard ended hub) {later : JobAccount}
    (still : hub.accountant.account? completion.job = some later) (now : Instant) :
    ∃ noted, Tallied start (completion :: heard) ended noted ∧
      hub.onCompletion completion now = noted.finishIfComplete completion.job now := by
  by_cases ends : ∀ record, later.tasks.get? completion.task = some record →
      record.state.isTerminal = true
  · exact ⟨_, tallied.ignore (tallied.named still ends),
      onCompletion_of_stale tallied.free still ends now⟩
  · obtain ⟨record, running⟩ := not_forall.1 ends
    obtain ⟨found, running⟩ := Classical.not_imp.1 running
    have running : record.state.isTerminal = false := by simpa using running
    exact ⟨_, tallied.note still found running,
      onCompletion_of_news tallied.free still found running now⟩

/-- A report is tallied, whichever others came before it. -/
theorem onCompletion (tallied : Tallied start heard ended hub)
    (agree : ended.Perm (start.jobsFinished heard)) (completion : Completion) (now : Instant) :
    ∃ ended', Tallied start (completion :: heard) ended' (hub.onCompletion completion now).1 ∧
      ended'.Perm (start.jobsFinished (completion :: heard)) := by
  cases still : hub.accountant.account? completion.job with
  | none => exact ⟨ended, tallied.onCompletion_of_gone agree still now⟩
  | some later =>
      obtain ⟨unfinished, _⟩ := tallied.origin still
      obtain ⟨noted, tallied, same⟩ := tallied.onCompletion_of_kept still now
      have complete := tallied.isComplete_eq unfinished
      rw [same]
      cases asked : noted.isComplete completion.job with
      | false =>
          rw [finishIfComplete_of_incomplete asked]
          refine ⟨ended, tallied, agree.trans (jobsFinished_of_stale fun complete' => ?_).symm⟩
          rw [← complete, asked] at complete'
          cases complete'
      | true =>
          refine ⟨_, tallied.finish unfinished asked now, (agree.cons _).trans ?_⟩
          refine (jobsFinished_of_news (complete ▸ asked) fun finished => ?_).symm
          exact unfinished (agree.mem_iff.2 finished)

/-- A hub with the same accounts, jobs and announcements, and the same counts of them. -/
theorem of_same {after : Hub} (tallied : Tallied start heard ended hub)
    (accountant : after.accountant = hub.accountant)
    (jobs : after.ledger.jobs = hub.ledger.jobs) (announced : after.announced = hub.announced)
    (ignored : after.metrics.eventsIgnored = hub.metrics.eventsIgnored)
    (finished : after.metrics.jobsFinished = hub.metrics.jobsFinished) :
    Tallied start heard ended after where
  free := accountant ▸ tallied.free
  filed := tallied.filed.of_jobs_eq jobs
  gone := accountant ▸ tallied.gone
  kept := accountant ▸ tallied.kept
  retired := accountant ▸ tallied.retired
  loads := accountant ▸ tallied.loads
  jobs := jobs ▸ tallied.jobs
  ignored := ignored ▸ tallied.ignored
  finished := finished.trans tallied.finished
  announced := announced ▸ tallied.announced

end Tallied

/-! ## What reports leave alone -/

/-- Of the ledger only states of jobs were written, and of the counters only those of ignored
reports and of finished jobs. -/
structure Settles (hub after : Hub) : Prop where
  ledger : Alike Job.stateless hub.ledger after.ledger
  metrics : after.metrics = { hub.metrics with
    eventsIgnored := after.metrics.eventsIgnored
    jobsFinished := after.metrics.jobsFinished }

theorem settles_count (hub : Hub) : Settles hub (hub.count Metrics.eventIgnored) :=
  ⟨.refl _ _, rfl⟩

theorem Settles.trans {middle after : Hub} (first : Settles hub middle)
    (second : Settles middle after) : Settles hub after where
  ledger := first.ledger.trans second.ledger
  metrics := by rw [second.metrics, first.metrics]

theorem settles_finishIfComplete (filed : hub.ledger.Filed) (id : String) (now : Instant) :
    Settles hub (hub.finishIfComplete id now).1 := by
  cases complete : hub.isComplete id with
  | false =>
      rw [finishIfComplete_of_incomplete complete]
      exact ⟨.refl _ _, rfl⟩
  | true =>
      obtain ⟨job, found, after⟩ := finishIfComplete_of_complete complete now
      have whole : (job.withState .finished now).limits.Whole :=
        (whole_of_job? found : job.limits.Whole)
      have named : (job.withState .finished now).id = id := (filed found : job.id = id)
      rw [after]
      refine ⟨⟨fun key => ?_, fun _ => rfl, fun _ => rfl, rfl, rfl⟩, rfl⟩
      dsimp only [putJob]
      rw [fetch_insert (Job.codec_readsBack whole), named]
      split
      · next own =>
        rw [own, ← job?, found]
        rfl
      · rfl

theorem settles_onCompletion (free : hub.accountant.holder = none) (filed : hub.ledger.Filed)
    (completion : Completion) (now : Instant) :
    Settles hub (hub.onCompletion completion now).1 := by
  cases kept : hub.accountant.account? completion.job with
  | none =>
      rw [onCompletion_of_gone free kept]
      exact settles_count hub
  | some account =>
      rw [onCompletion, awaitAccount_of_free free, kept]
      dsimp only [applyState]
      generalize hub.accountant.apply completion.job completion.task completion.taskState = result
      obtain ⟨accountant, recorded⟩ := result
      have noted : Settles hub { hub with accountant := accountant } := ⟨.refl _ _, rfl⟩
      have asked (after : Hub) (settles : Settles hub after)
          (same : after.ledger = hub.ledger) :
          Settles hub (after.finishIfComplete completion.job now).1 :=
        settles.trans (settles_finishIfComplete (same ▸ filed) completion.job now)
      cases recorded with
      | updated => exact asked _ noted rfl
      | duplicate => exact asked _ (noted.trans (settles_count _)) rfl
      | unknown => exact asked _ (noted.trans (settles_count _)) rfl

end Hub

end MediaHarvest
