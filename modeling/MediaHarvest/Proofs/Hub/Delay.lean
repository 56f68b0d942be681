import MediaHarvest.Proofs.Hub.Overdue

/-!
# Nothing depends on a delay

While a job is overdue, everything goes on as if it had been finished: whatever happens, the hub in
which it is overdue and the one in which it was finished in time differ by `Hub.settle` only.  What
concerns the lost record itself is left out of the run in which it was not lost.
-/

namespace MediaHarvest

open Ledger Accountant

/-- A call asks whether a job is finished. -/
def Call.Asks (id : String) : Call → Prop
  | .report completion => completion.job = id
  | .reconcile job => job = id
  | _ => False

/-- A record of a job says that it is finished. -/
structure Job.Closes (record job : Job) : Prop where
  named : record.id = job.id
  ended : record.state = .finished
  plan : record.tasks = job.tasks
  whole : record.limits.Whole

namespace Incident

/-- An incident goes on without the record of a job, unless it overwrites that record or is a report
for the job that cannot be recorded for want of it. -/
def goesOn (id : String) (hub : Hub) : Incident → Bool
  | .call (.record completion) _ => completion.job != id || (hub.ledger.job id).isOk
  | .call .. => true
  | .overwrite job _ => job != id

/-- If a report for a job is recorded, the record of the job has the owner and the role that it
should have: these go into what is recorded. -/
def RecordsAs (job : Job) (hub : Hub) : Incident → Prop
  | .call (.record completion) _ => completion.job = job.id →
      ∀ last, hub.ledger.job? job.id = .ok (some last) →
        last.owner = job.owner ∧ last.role = job.role
  | _ => True

end Incident

namespace Hub

/-- Those of the incidents that go on without the record of a job. -/
def goingOn (id : String) : List Incident → Hub → List Incident
  | [], _ => []
  | incident :: rest, hub =>
      let others := goingOn id rest (incident.happen hub).1
      if incident.goesOn id hub then incident :: others else others

theorem goingOn_append (id : String) (first second : List Incident) (hub : Hub) :
    goingOn id (first ++ second) hub =
      goingOn id first hub ++ goingOn id second (undergo first hub).1 := by
  induction first generalizing hub with
  | nil => rfl
  | cons incident rest ih =>
      rw [List.cons_append, goingOn, goingOn, undergo, ih]
      dsimp only
      split <;> rfl

/-- Whenever a report for a job is recorded, the record of the job has the owner and the role that
it should have. -/
def RecordsAs (job : Job) : List Incident → Hub → Prop
  | [], _ => True
  | incident :: rest, hub =>
      incident.RecordsAs job hub ∧ RecordsAs job rest (incident.happen hub).1

variable {hub : Hub} {job record : Job} {account : JobAccount} {announced : List String}
  {now : Instant} {incident : Incident}

/-! ## Jobs that were settled -/

section Settled

variable {id : String} (named : record.id = id)
include named

theorem job?_settle (whole : record.limits.Whole) (hub : Hub) :
    (hub.settle record announced).ledger.job? id = .ok (some record) :=
  (job?_putJob whole id).trans (if_pos named.symm)

theorem account?_settle (hub : Hub) :
    (hub.settle record announced).accountant.account? id = none :=
  (account?_close ..).trans (if_pos named.symm)

/-- A report for a job that was settled is ignored. -/
theorem onCompletion_settled (free : hub.accountant.holder = none) {completion : Completion}
    (own : completion.job = id) (now : Instant) :
    (hub.settle record announced).onCompletion completion now =
      ((hub.count Metrics.eventIgnored).settle record announced, .ok .ignored) := by
  have held : (hub.settle record announced).accountant.holder = none := free
  rw [onCompletion_of_gone held (account?_settle (named.trans own.symm) hub)]
  rfl

/-- So is a second look. -/
theorem reconcile_settled (free : hub.accountant.holder = none) (now : Instant) :
    (hub.settle record announced).reconcile id now =
      (hub.settle record announced, .ok .ignored) := by
  have held : (hub.settle record announced).accountant.holder = none := free
  rw [reconcile, awaitAccount_of_free held, account?_settle named]

end Settled

/-- A report for the job that can be recorded is recorded alike. -/
theorem record_settle_own (closes : record.Closes job) (owner : record.owner = job.owner)
    (role : record.role = job.role) {completion : Completion} (own : completion.job = job.id)
    (records : (Incident.call (.record completion) now).RecordsAs job hub)
    (kept : (hub.ledger.job job.id).isOk = true) :
    (hub.settle record announced).record completion now =
      ((hub.record completion now).1.settle record announced,
        (hub.record completion now).2) := by
  cases read : hub.ledger.job job.id with
  | error error =>
      rw [read] at kept
      cases kept
  | ok last =>
      have found := job_eq_ok_iff.1 read
      have same := records own last found
      exact record_settle (record_putJob_of_found closes.whole (own.trans closes.named.symm)
        (closes.named ▸ found) (same.1.trans owner.symm) (same.2.trans role.symm) now)

/-! ## Calls for an overdue job -/

namespace Overdue

variable (overdue : Overdue job account hub) (closes : record.Closes job)
include overdue closes

/-- A call for the job, if it does not finish it, is the same to the job once it is settled. -/
theorem perform_settle_own {call : Call} (keeps : call.KeepsTo job)
    (own : call.job? = some job.id) (silent : job.id ∉ finishedJobs (call.perform now hub).2)
    (announced : List String) :
    (call.perform now (hub.settle record announced)).1 =
        (call.perform now hub).1.settle record announced ∧
      finishedJobs (call.perform now hub).2 = [] := by
  have free := overdue.orderly.free
  have filed := overdue.orderly.filed
  have stored : (hub.settle record announced).ledger.job? job.id = .ok (some record) :=
    job?_settle closes.named closes.whole hub
  have closed : record.state.acceptsDispatch = false := by rw [closes.ended]; rfl
  have moves {sources : List JobState} (leaving : .finished ∉ sources) (target : JobState) :=
    moveJob_of_finished stored closes.ended leaving target now
  have written (sources : List JobState) (target : JobState) :=
    (rerecorded_moveJob filed job.id sources target now).settle closes.named announced
  cases call with
  | dispatch id task =>
      cases own
      have stays := dispatch_of_accounted (overdue.hasTask (keeps rfl)) now
      rw [Call.perform, Call.perform, dispatch_of_closed stored closed, stays.1]
      exact ⟨rfl, finishedJobs_map_sent ..⟩
  | dispatchJob id =>
      cases own
      rw [Call.perform, Call.perform, (dispatchJob_of_closed stored closed now).1,
        (overdue.dispatchJob now).1]
      exact ⟨rfl, finishedJobs_map_sent ..⟩
  | startJob id =>
      cases own
      rw [Call.perform, Call.perform, (overdue.startJob now).1, written, Hub.startJob,
        moves (by decide)]
      dsimp only
      rw [if_pos closes.ended]
      exact ⟨rfl, finishedJobs_map_sent ..⟩
  | stopJob id =>
      cases own
      rw [Call.perform, Call.perform, stopJob_eq, stopJob_eq, written, moves (by decide)]
      exact ⟨rfl, rfl⟩
  | report completion =>
      have own : completion.job = job.id := Option.some.inj own
      rw [Call.perform, overdue.onCompletion own, finishedJobs_reported, own] at silent
      have stays := conclude_of_silent silent
      rw [Call.perform, Call.perform, onCompletion_settled closes.named free own,
        overdue.onCompletion own, finishedJobs_reported, own, stays.1]
      exact ⟨rfl, stays.2⟩
  | reconcile id =>
      cases own
      rw [Call.perform, overdue.reconcile, finishedJobs_reconciled] at silent
      have stays := conclude_of_silent silent
      rw [Call.perform, Call.perform, reconcile_settled closes.named free, overdue.reconcile,
        finishedJobs_reconciled, stays.1]
      exact ⟨rfl, stays.2⟩
  | record completion => cases own
  | removeJob id => exact absurd (Option.some.inj own) keeps
  | takeTask node => cases own
  | closeNode node => cases own

/-- What goes on does the same whether the job is settled before it or after it. -/
theorem happen_settle (owner : record.owner = job.owner) (role : record.role = job.role)
    (keeps : incident.KeepsTo job) (records : incident.RecordsAs job hub)
    (goes : incident.goesOn job.id hub = true)
    (silent : job.id ∉ finishedJobs (incident.happen hub).2) (announced : List String) :
    (incident.happen (hub.settle record announced)).1 =
      (incident.happen hub).1.settle record
        (announced ++ finishedJobs (incident.happen hub).2) := by
  cases incident with
  | overwrite id bytes =>
      have differ : id ≠ record.id := by simpa [Incident.goesOn, closes.named] using goes
      have unsaid : announced ++ finishedJobs (Incident.happen (.overwrite id bytes) hub).2 =
          announced := List.append_nil announced
      rw [unsaid]
      exact overwrite_settle differ bytes
  | call call now =>
      by_cases own : call.job? = some job.id
      · obtain ⟨settled, none⟩ :=
          overdue.perform_settle_own closes keeps own silent announced
        have none : finishedJobs (Incident.happen (.call call now) hub).2 = [] := none
        rw [none, List.append_nil]
        exact settled
      · by_cases recording : ∃ completion, call = .record completion ∧ completion.job = job.id
        · obtain ⟨completion, rfl, mine⟩ := recording
          have kept : (hub.ledger.job job.id).isOk = true := by
            simpa [Incident.goesOn, mine] using goes
          have unsaid : announced ++
              finishedJobs (Incident.happen (.call (.record completion) now) hub).2 =
                announced := List.append_nil announced
          rw [unsaid]
          exact congrArg Prod.fst
            (record_settle_own closes owner role mine records kept)
        · have spares : call.Spares record.id := by
            rw [closes.named]
            cases call with
            | record completion => exact fun mine => recording ⟨completion, rfl, mine⟩
            | _ => exact own
          exact congrArg Prod.fst (perform_settle closes.whole overdue.orderly spares now)

end Overdue

/-- What does not go on is undone by settling the job. -/
theorem settle_of_stopped (named : record.id = job.id)
    (stops : incident.goesOn job.id hub = false) (announced : List String) :
    (incident.happen hub).1.settle record announced = hub.settle record announced ∧
      (incident.happen hub).2 = [] := by
  cases incident with
  | overwrite id bytes =>
      have own : id = job.id := by simpa [Incident.goesOn] using stops
      subst own
      exact ⟨(rerecorded_overwrite hub job.id bytes).settle named announced, rfl⟩
  | call call now =>
      cases call with
      | record completion =>
          obtain ⟨own, lost⟩ : completion.job = job.id ∧ (hub.ledger.job job.id).isOk = false := by
            simpa [Incident.goesOn] using stops
          have lost : hub.ledger.Lost completion.job := by
            rw [own]
            intro last found
            rw [job_eq_ok_iff.2 found] at lost
            cases lost
          obtain ⟨error, refused⟩ := record_of_lost lost now
          exact ⟨by rw [Incident.happen, Call.perform, Hub.record, refused], rfl⟩
      | _ => cases stops

/-- While the job is overdue, what goes on does the same as if the job had been settled before. -/
theorem Overdue.undergo_settle (closes : record.Closes job) (owner : record.owner = job.owner)
    (role : record.role = job.role) (incidents : List Incident) (hub : Hub)
    (announced : List String) (overdue : Overdue job account hub)
    (keeps : ∀ incident ∈ incidents, incident.KeepsTo job) (records : RecordsAs job incidents hub)
    (silent : job.id ∉ finishedJobs (Hub.undergo incidents hub).2) :
    (Hub.undergo (goingOn job.id incidents hub) (hub.settle record announced)).1 =
      (Hub.undergo incidents hub).1.settle record
        (announced ++ finishedJobs (Hub.undergo incidents hub).2) := by
  induction incidents generalizing hub announced with
  | nil =>
      have unsaid : announced ++ finishedJobs (Hub.undergo [] hub).2 = announced :=
        List.append_nil announced
      rw [unsaid]
      rfl
  | cons incident rest ih =>
      have others : ∀ incident ∈ rest, incident.KeepsTo job := fun other mem =>
        keeps other (List.mem_cons_of_mem _ mem)
      rw [Hub.undergo] at silent ⊢
      dsimp only at silent ⊢
      rw [finishedJobs_append, List.mem_append, not_or] at silent
      rw [finishedJobs_append, goingOn]
      cases overdue.happen (keeps incident List.mem_cons_self) with
      | done said gone =>
          exact absurd (List.count_pos_iff.1 (by omega)) silent.1
      | waits _ next =>
          have further := ih _ (announced ++ finishedJobs (incident.happen hub).2) next others
            records.2 silent.2
          cases goes : incident.goesOn job.id hub with
          | true =>
              have settled := overdue.happen_settle closes owner role
                (keeps incident List.mem_cons_self) records.1 goes silent.1 announced
              rw [if_pos rfl, Hub.undergo, settled, further, List.append_assoc]
          | false =>
              obtain ⟨same, none⟩ := settle_of_stopped closes.named goes announced
              rw [none, finishedJobs, List.flatMap_nil, List.append_nil, same] at further
              rw [if_neg Bool.false_ne_true, further, none]
              rfl

/-! ## The end of the delay -/

/-- Two hubs stand alike, one of which finished a job later than the other. -/
structure MadeGood (job : Job) (late prompt : Hub) : Prop where
  accountant : late.accountant = prompt.accountant
  metrics : late.metrics = prompt.metrics
  announced : late.announced.Perm prompt.announced
  undisturbed : Undisturbed prompt late
  /-- Apart from the record of the job, the same is on record. -/
  ledger : ∀ record : Job, record.id = job.id →
    late.ledger.putJob record = prompt.ledger.putJob record
  stored : ∃ record, late.ledger.job? job.id = .ok (some record) ∧ record.Closes job
  intended : ∃ record, prompt.ledger.job? job.id = .ok (some record) ∧ record.Closes job

theorem madeGood_settle {first second : Job} (closes : first.Closes job)
    (closes' : second.Closes job) {announced announced' : List String}
    (perm : announced.Perm announced') (hub : Hub) :
    MadeGood job (hub.settle first announced) (hub.settle second announced') := by
  have same : first.id = second.id := closes.named.trans closes'.named.symm
  refine ⟨?_, rfl, perm, ⟨rfl, rfl, rfl, rfl, rfl⟩, fun record named => ?_,
    ⟨first, job?_settle closes.named closes.whole hub, closes⟩,
    ⟨second, job?_settle closes'.named closes'.whole hub, closes'⟩⟩
  · rw [settle, settle, same]
  · rw [settle, settle]
    dsimp only
    rw [putJob_putJob (closes.named.trans named.symm),
      putJob_putJob (closes'.named.trans named.symm)]

/-- An overdue job whose record can be read is finished by a report for it or a look at it; one that
was settled is left alone. -/
theorem Overdue.asked (overdue : Overdue job account hub) {last : Job}
    (found : hub.ledger.job? job.id = .ok (some last)) {asked : Call} (asks : asked.Asks job.id)
    (moment : Instant) :
    ∃ counted : Hub,
      (asked.perform moment hub).1 = counted.settle (last.withState .finished moment)
        (hub.announced ++ [job.id]) ∧
      finishedJobs (asked.perform moment hub).2 = [job.id] ∧
      ∀ (record : Job) (announced : List String), record.id = job.id →
        (asked.perform moment (hub.settle record announced)).1 =
          counted.settle record announced := by
  have free := overdue.orderly.free
  cases asked with
  | report completion =>
      have own : completion.job = job.id := asks
      have counted := conclude_of_found (show (hub.count Metrics.eventIgnored).ledger.job job.id =
        .ok last from job_eq_ok_iff.2 found) moment
      rw [Call.perform, overdue.onCompletion own, counted, finishedJobs_reported, own]
      refine ⟨hub.count Metrics.eventIgnored, rfl, rfl, fun record announced named => ?_⟩
      rw [Call.perform, onCompletion_settled named free own]
  | reconcile id =>
      cases asks
      rw [Call.perform, overdue.reconcile, conclude_of_found (job_eq_ok_iff.2 found),
        finishedJobs_reconciled]
      refine ⟨hub, rfl, rfl, fun record announced named => ?_⟩
      rw [Call.perform, reconcile_settled named free]
  | _ => cases asks

theorem goingOn_asked {asked : Call} {id : String} (asks : asked.Asks id) (moment : Instant)
    (hub : Hub) : goingOn id [.call asked moment] hub = [.call asked moment] := by
  have goes : Incident.goesOn id hub (.call asked moment) = true := by
    cases asked with
    | record completion => cases asks
    | _ => rfl
  rw [goingOn, goes, if_pos rfl]
  rfl

/-- If an overdue job is finished later, the hub is as if it had been finished at once. -/
theorem Overdue.madeGood (overdue : Overdue job account hub) (closes : record.Closes job)
    (owner : record.owner = job.owner) (role : record.role = job.role) {later : List Incident}
    (keeps : ∀ incident ∈ later, incident.KeepsTo job) (records : RecordsAs job later hub)
    (silent : job.id ∉ finishedJobs (Hub.undergo later hub).2) {last : Job}
    (found : (Hub.undergo later hub).1.ledger.job? job.id = .ok (some last)) {asked : Call}
    (asks : asked.Asks job.id) (moment : Instant) :
    (finishedJobs (Hub.undergo (later ++ [.call asked moment]) hub).2).count job.id = 1 ∧
      MadeGood job (Hub.undergo (later ++ [.call asked moment]) hub).1
        (Hub.undergo (goingOn job.id (later ++ [.call asked moment]) hub)
          (hub.settle record (hub.announced ++ [job.id]))).1 := by
  have reached : Overdue job account (Hub.undergo later hub).1 := by
    cases overdue.undergo later hub keeps with
    | waits _ reached => exact reached
    | done said gone => exact absurd (List.count_pos_iff.1 (by omega)) silent
  obtain ⟨counted, finishes, said, settled⟩ := reached.asked found asks moment
  have announced := announced_undergo later hub overdue.orderly fun incident mem =>
    (keeps incident mem).proper
  have prompt := overdue.undergo_settle closes owner role later hub (hub.announced ++ [job.id])
    keeps records silent
  have named : last.id = job.id := reached.orderly.filed found
  have whole : last.limits.Whole := whole_of_job? found
  have closes' : (last.withState .finished moment).Closes job :=
    ⟨named, rfl, reached.plan last found, whole⟩
  have perm : ((Hub.undergo later hub).1.announced ++ [job.id]).Perm
      (hub.announced ++ [job.id] ++ finishedJobs (Hub.undergo later hub).2) := by
    rw [announced, List.append_assoc, List.append_assoc]
    exact List.perm_append_comm.append_left _
  rw [goingOn_append, goingOn_asked asks, undergo_append, undergo_append, prompt]
  have good := madeGood_settle closes' closes perm counted
  rw [← finishes, ← settled record _ closes.named] at good
  refine ⟨?_, good⟩
  have once : finishedJobs (Hub.undergo [.call asked moment] (Hub.undergo later hub).1).2 =
      [job.id] := by
    rw [Hub.undergo, Hub.undergo, List.append_nil]
    exact said
  rw [finishedJobs_append, List.count_append, once, List.count_eq_zero.2 silent,
    List.count_singleton_self]

end Hub

end MediaHarvest
