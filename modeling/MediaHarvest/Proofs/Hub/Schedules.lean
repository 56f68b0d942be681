import MediaHarvest.Proofs.Hub.Journal
import MediaHarvest.Proofs.Hub.Tally
import MediaHarvest.Proofs.Hub.Undisturbed
import MediaHarvest.Proofs.Wire.Records
import Mathlib.Logic.Relation

/-!
# Messages taken in side by side

Messages arrive in order.  The recorder takes the reports among them in that order, but each of
them is taken into account whenever its turn comes, before or after others and before or after it
is recorded.  Whatever the schedule, and whatever the clock shows at each step, the hub is in the
end as if every message had been dealt with when it arrived.  A message that is no report leaves
nothing but its count.
-/

namespace MediaHarvest

open Ledger Accountant

/-- Whether a message is a report. -/
def Wire.isReport (message : Bytes) : Bool := (decodeCompletion message).isOk

/-- The reports among messages. -/
def Wire.reports (messages : List Bytes) : List Completion :=
  messages.filterMap fun message => (decodeCompletion message).toOption

/-- How many messages are no reports. -/
def Wire.undecodable (messages : List Bytes) : Nat :=
  messages.countP fun message => !isReport message

/-! ## Schedules -/

/-- A hub that takes in messages. -/
structure Intake where
  /-- The messages that have not been looked at. -/
  arriving : List Bytes
  /-- The reports that wait to be recorded, the first one first. -/
  inbox : List Completion
  /-- The reports that wait to be taken into account. -/
  inFlight : List Completion
  hub : Hub

/-- What can happen next.  Every step has a clock of its own. -/
inductive Intake.Step : Intake → Intake → Prop where
  /-- The next message is no report. -/
  | drop {message : Bytes} {arriving : List Bytes} {inbox inFlight : List Completion} {hub : Hub}
      (refused : Wire.isReport message = false) :
      Step ⟨message :: arriving, inbox, inFlight, hub⟩
        ⟨arriving, inbox, inFlight, hub.count Metrics.eventUndecodable⟩
  /-- The next message is a report, which is passed on to both. -/
  | take {message : Bytes} {arriving : List Bytes} {inbox inFlight : List Completion} {hub : Hub}
      {completion : Completion} (read : Wire.decodeCompletion message = .ok completion) :
      Step ⟨message :: arriving, inbox, inFlight, hub⟩
        ⟨arriving, inbox ++ [completion], inFlight ++ [completion],
          hub.count Metrics.eventReceived⟩
  /-- The report that came in first is recorded. -/
  | record {arriving : List Bytes} {inbox inFlight : List Completion} {hub : Hub}
      {completion : Completion} (now : Instant) :
      Step ⟨arriving, completion :: inbox, inFlight, hub⟩
        ⟨arriving, inbox, inFlight, (hub.record completion now).1⟩
  /-- Any of the reports is taken into account. -/
  | settle {arriving : List Bytes} {inbox before after : List Completion} {hub : Hub}
      {completion : Completion} (now : Instant) :
      Step ⟨arriving, inbox, before ++ completion :: after, hub⟩
        ⟨arriving, inbox, before ++ after, (hub.onCompletion completion now).1⟩

/-- The messages were taken in under some schedule, up to the last step. -/
def Hub.Scheduled (hub : Hub) (messages : List Bytes) (after : Hub) : Prop :=
  Relation.ReflTransGen Intake.Step ⟨messages, [], [], hub⟩ ⟨[], [], [], after⟩

/-! ## Messages and reports -/

namespace Wire

variable {message : Bytes} {completion : Completion}

theorem isReport_eq_false_iff :
    isReport message = false ↔ ∃ error, decodeCompletion message = .error error := by
  rw [isReport]
  cases decodeCompletion message with
  | error error => exact iff_of_true rfl ⟨error, rfl⟩
  | ok completion => exact iff_of_false (by rintro ⟨⟩) (by rintro ⟨error, ⟨⟩⟩)

theorem reports_append_of_refused (refused : isReport message = false) (taken : List Bytes) :
    reports (taken ++ [message]) = reports taken ∧
      undecodable (taken ++ [message]) = undecodable taken + 1 := by
  obtain ⟨error, read⟩ := isReport_eq_false_iff.1 refused
  rw [reports, undecodable, List.filterMap_append, List.countP_append]
  constructor
  · simp [reports, read, Except.toOption]
  · simp [undecodable, refused]

theorem reports_append_of_read (read : decodeCompletion message = .ok completion)
    (taken : List Bytes) :
    reports (taken ++ [message]) = reports taken ++ [completion] ∧
      undecodable (taken ++ [message]) = undecodable taken := by
  rw [reports, undecodable, List.filterMap_append, List.countP_append]
  constructor
  · simp [reports, read, Except.toOption]
  · simp [undecodable, isReport, read, Except.isOk, Except.toBool]

/-- The messages that are reports have the same reports, and nothing else. -/
theorem reports_filter (messages : List Bytes) :
    reports (messages.filter isReport) = reports messages ∧
      undecodable (messages.filter isReport) = 0 := by
  constructor
  · rw [reports, reports, List.filterMap_filter]
    refine List.filterMap_congr fun message _ => ?_
    rw [isReport]
    cases decodeCompletion message <;> rfl
  · rw [undecodable, List.countP_eq_zero]
    intro message mem
    simp [(List.mem_filter.1 mem).2]

end Wire

/-! ## What taking in messages comes to -/

/-- The counters that taking in messages does not touch. -/
def Metrics.elsewhere (metrics : Metrics) : Metrics :=
  { metrics with
    eventsReceived := 0
    eventsIgnored := 0
    eventsUndecodable := 0
    jobsFinished := 0
    statisticsRecorded := 0 }

/-- Counters are equal if those are that taking in messages touches, and the others. -/
theorem Metrics.eq_of_elsewhere {first second : Metrics}
    (elsewhere : first.elsewhere = second.elsewhere)
    (received : first.eventsReceived = second.eventsReceived)
    (ignored : first.eventsIgnored = second.eventsIgnored)
    (undecodable : first.eventsUndecodable = second.eventsUndecodable)
    (finished : first.jobsFinished = second.jobsFinished)
    (recorded : first.statisticsRecorded = second.statisticsRecorded) : first = second := by
  have whole (metrics : Metrics) : metrics = { metrics.elsewhere with
      eventsReceived := metrics.eventsReceived
      eventsIgnored := metrics.eventsIgnored
      eventsUndecodable := metrics.eventsUndecodable
      jobsFinished := metrics.jobsFinished
      statisticsRecorded := metrics.statisticsRecorded } := rfl
  rw [whole first, whole second, elsewhere, received, ignored, undecodable, finished, recorded]

namespace Hub

variable {start hub first second : Hub} {received undecodable : Nat}
  {recorded heard heard' : List Completion} {completion : Completion} {now : Instant}

/-- The hub after so many reports and so many other messages came in.  Of the reports, `recorded`
were recorded in this order, and `heard` were taken into account in some order. -/
structure TakenIn (start : Hub) (received undecodable : Nat) (recorded heard : List Completion)
    (hub : Hub) : Prop where
  tallied : ∃ ended, Tallied start heard ended hub ∧ ended.Perm (start.jobsFinished heard)
  /-- The ledger is what recording in order makes of it, apart from times and states of jobs. -/
  ledger : Alike Job.stateless (start.ledger.recordInOrder recorded).1 hub.ledger
  received : hub.metrics.eventsReceived = start.metrics.eventsReceived + UInt64.ofNat received
  undecodable : hub.metrics.eventsUndecodable =
    start.metrics.eventsUndecodable + UInt64.ofNat undecodable
  recorded : hub.metrics.statisticsRecorded =
    start.metrics.statisticsRecorded + UInt64.ofNat (start.ledger.recordInOrder recorded).2
  elsewhere : hub.metrics.elsewhere = start.metrics.elsewhere
  undisturbed : Undisturbed start hub

/-- The hub with so many more messages counted that are no reports. -/
def dropped (hub : Hub) (count : Nat) : Hub :=
  hub.count fun metrics =>
    { metrics with eventsUndecodable := metrics.eventsUndecodable + UInt64.ofNat count }

/-- Recording a report writes to the ledger, and is counted unless it is refused. -/
theorem record_eq (hub : Hub) (completion : Completion) (now : Instant) :
    (hub.record completion now).1 = { hub with
      ledger := (hub.ledger.record completion now).1
      metrics := if (hub.ledger.record completion now).2.isOk then hub.metrics.executionRecorded
        else hub.metrics } := by
  rw [record]
  rcases hub.ledger.record completion now with ⟨ledger, error | recording⟩ <;> rfl

namespace TakenIn

theorem refl (free : start.accountant.holder = none) (filed : start.ledger.Filed) :
    TakenIn start 0 0 [] [] start where
  tallied := ⟨[], tallied_nil free filed, .nil⟩
  ledger := .refl _ _
  received := by simp
  undecodable := by simp
  recorded := by simp [recordInOrder]
  elsewhere := rfl
  undisturbed := .refl start

/-- Messages that are no reports are counted. -/
theorem dropped (takenIn : TakenIn start received undecodable recorded heard hub) (count : Nat) :
    TakenIn start received (undecodable + count) recorded heard (hub.dropped count) := by
  obtain ⟨ended, tallied, finished⟩ := takenIn.tallied
  refine ⟨⟨ended, tallied.of_same rfl rfl rfl rfl rfl, finished⟩, takenIn.ledger,
    takenIn.received, ?_, takenIn.recorded, takenIn.elsewhere,
    takenIn.undisturbed.trans ⟨rfl, rfl, rfl, rfl, rfl⟩⟩
  rw [UInt64.ofNat_add, ← UInt64.add_assoc, ← takenIn.undecodable]
  rfl

/-- A report is counted when it comes in. -/
theorem take (takenIn : TakenIn start received undecodable recorded heard hub) :
    TakenIn start (received + 1) undecodable recorded heard
      (hub.count Metrics.eventReceived) := by
  obtain ⟨ended, tallied, finished⟩ := takenIn.tallied
  refine ⟨⟨ended, tallied.of_same rfl rfl rfl rfl rfl, finished⟩, takenIn.ledger, ?_,
    takenIn.undecodable, takenIn.recorded, takenIn.elsewhere,
    takenIn.undisturbed.trans ⟨rfl, rfl, rfl, rfl, rfl⟩⟩
  rw [UInt64.ofNat_add, ← UInt64.add_assoc, ← takenIn.received]
  rfl

/-- The next report is recorded. -/
theorem record (takenIn : TakenIn start received undecodable recorded heard hub)
    (completion : Completion) (now : Instant) :
    TakenIn start received undecodable (recorded ++ [completion]) heard
      (hub.record completion now).1 := by
  obtain ⟨ended, tallied, finished⟩ := takenIn.tallied
  obtain ⟨alike, answer⟩ := takenIn.ledger.record completion .epoch now
  rw [record_eq, ← answer]
  constructor
  · refine ⟨ended, ?_, finished⟩
    refine tallied.of_same rfl (jobs_record hub.ledger completion now) rfl ?_ ?_
    all_goals
      dsimp only
      split <;> rfl
  · rw [recordInOrder_append]
    exact alike
  · refine .trans ?_ takenIn.received
    dsimp only
    split <;> rfl
  · refine .trans ?_ takenIn.undecodable
    dsimp only
    split <;> rfl
  · have before := takenIn.recorded
    rw [recordInOrder_append]
    dsimp only
    split
    · rw [UInt64.ofNat_add, ← UInt64.add_assoc, ← before]
      rfl
    · exact before
  · refine .trans ?_ takenIn.elsewhere
    dsimp only
    split <;> rfl
  · exact takenIn.undisturbed.trans ⟨rfl, rfl, rfl, rfl, rfl⟩

/-- A report is taken into account. -/
theorem settle (takenIn : TakenIn start received undecodable recorded heard hub)
    (completion : Completion) (now : Instant) :
    TakenIn start received undecodable recorded (completion :: heard)
      (hub.onCompletion completion now).1 := by
  obtain ⟨ended, tallied, finished⟩ := takenIn.tallied
  have settles := settles_onCompletion tallied.free tallied.filed completion now
  constructor
  · exact tallied.onCompletion finished completion now
  · exact takenIn.ledger.trans settles.ledger
  · rw [settles.metrics]
    exact takenIn.received
  · rw [settles.metrics]
    exact takenIn.undecodable
  · rw [settles.metrics]
    exact takenIn.recorded
  · rw [settles.metrics]
    exact takenIn.elsewhere
  · exact takenIn.undisturbed.trans (undisturbed_onCompletion ..)

end TakenIn

end Hub

/-! ## What a schedule keeps -/

/-- Some of the messages were looked at; of the reports among them, some were recorded and some
were taken into account. -/
structure Intake.Progress (start : Hub) (messages taken : List Bytes)
    (recorded heard : List Completion) (intake : Intake) : Prop where
  arriving : taken ++ intake.arriving = messages
  inbox : recorded ++ intake.inbox = Wire.reports taken
  inFlight : (heard ++ intake.inFlight).Perm (Wire.reports taken)
  hub : start.TakenIn (Wire.reports taken).length (Wire.undecodable taken) recorded heard intake.hub

namespace Intake.Progress

variable {start : Hub} {messages taken : List Bytes} {recorded heard : List Completion}
  {intake next : Intake}

/-- Every step is progress. -/
theorem step (progress : Progress start messages taken recorded heard intake)
    (step : Step intake next) :
    ∃ taken recorded heard, Progress start messages taken recorded heard next := by
  cases step with
  | @drop message arriving inbox inFlight hub refused =>
      obtain ⟨same, more⟩ := Wire.reports_append_of_refused refused taken
      refine ⟨taken ++ [message], recorded, heard, ?_, ?_, ?_, ?_⟩
      · rw [List.append_assoc]
        exact progress.arriving
      · exact progress.inbox.trans same.symm
      · exact same.symm ▸ progress.inFlight
      · rw [same, more]
        exact progress.hub.dropped 1
  | @take message arriving inbox inFlight hub completion read =>
      obtain ⟨more, same⟩ := Wire.reports_append_of_read read taken
      refine ⟨taken ++ [message], recorded, heard, ?_, ?_, ?_, ?_⟩
      · rw [List.append_assoc]
        exact progress.arriving
      · rw [more, ← progress.inbox, List.append_assoc]
      · rw [more, ← List.append_assoc]
        exact progress.inFlight.append_right _
      · rw [same, more, List.length_append]
        exact progress.hub.take
  | @record arriving inbox inFlight hub completion now =>
      refine ⟨taken, recorded ++ [completion], heard, progress.arriving, ?_, progress.inFlight,
        progress.hub.record completion now⟩
      rw [List.append_assoc]
      exact progress.inbox
  | @settle arriving inbox before after hub completion now =>
      refine ⟨taken, recorded, completion :: heard, progress.arriving, progress.inbox, ?_,
        progress.hub.settle completion now⟩
      refine .trans ?_ progress.inFlight
      rw [List.cons_append, ← List.append_assoc, ← List.append_assoc]
      exact List.perm_middle.symm

/-- So is every sequence of steps. -/
theorem steps (progress : Progress start messages taken recorded heard intake)
    (steps : Relation.ReflTransGen Step intake next) :
    ∃ taken recorded heard, Progress start messages taken recorded heard next := by
  induction steps with
  | refl => exact ⟨taken, recorded, heard, progress⟩
  | tail _ last ih =>
      obtain ⟨taken, recorded, heard, progress⟩ := ih
      exact progress.step last

end Intake.Progress

namespace Hub

variable {start hub after first second third : Hub} {messages : List Bytes}
  {received undecodable : Nat} {recorded heard heard' : List Completion} {now : Instant}

/-- Under every schedule all reports were recorded in order, and taken into account in some
order. -/
theorem Scheduled.takenIn (scheduled : start.Scheduled messages after)
    (free : start.accountant.holder = none) (filed : start.ledger.Filed) :
    ∃ heard, heard.Perm (Wire.reports messages) ∧
      start.TakenIn (Wire.reports messages).length (Wire.undecodable messages)
        (Wire.reports messages) heard after := by
  have begins : Intake.Progress start messages [] [] [] ⟨messages, [], [], start⟩ :=
    ⟨rfl, rfl, .nil, .refl free filed⟩
  obtain ⟨taken, recorded, heard, progress⟩ := begins.steps scheduled
  have all : taken = messages := (List.append_nil taken).symm.trans progress.arriving
  have inbox : recorded = Wire.reports taken :=
    (List.append_nil recorded).symm.trans progress.inbox
  have inFlight := progress.inFlight
  have hub := progress.hub
  rw [List.append_nil] at inFlight
  subst all inbox
  exact ⟨heard, inFlight, hub⟩

/-! ## Hubs that agree -/

/-- Hubs that differ in times only, in how tasks ended, and in the order of the announcements. -/
structure Agrees (first second : Hub) : Prop where
  /-- The same jobs, resources, executions and latest records are stored. -/
  ledger : Alike Job.undated first.ledger second.ledger
  /-- The same jobs are accounted. -/
  accounts : ∀ id,
    (first.accountant.account? id).isSome = (second.accountant.account? id).isSome
  /-- The same tasks are accounted, and the same ones have ended. -/
  tasks : ∀ id task, (first.accountant.task? id task).map (·.standing) =
    (second.accountant.task? id task).map (·.standing)
  retired : first.accountant.retired = second.accountant.retired
  loads : ∀ node, first.accountant.load node = second.accountant.load node
  metrics : first.metrics = second.metrics
  announced : first.announced.Perm second.announced
  /-- Everything else is equal. -/
  undisturbed : Undisturbed first second

/-- Reports come to the same in every order. -/
theorem Tallied.account_cases {ended ended' : List String}
    (one : Tallied start heard ended first) (two : Tallied start heard' ended' second)
    (same : heard.Perm heard') (ends : ended.Perm ended') (id : String) :
    (first.accountant.account? id = none ∧ second.accountant.account? id = none) ∨
      ∃ account left right, first.accountant.account? id = some left ∧
        second.accountant.account? id = some right ∧
        JobAccount.Marked (names heard id) account left ∧
        JobAccount.Marked (names heard id) account right := by
  by_cases finished : id ∈ ended
  · exact .inl ⟨one.gone id (.inl finished), two.gone id (.inl (ends.mem_iff.1 finished))⟩
  · have finished' : id ∉ ended' := fun mem => finished (ends.mem_iff.2 mem)
    cases kept : start.accountant.account? id with
    | none => exact .inl ⟨one.gone id (.inr kept), two.gone id (.inr kept)⟩
    | some account =>
        obtain ⟨left, still, marked⟩ := one.kept id account finished kept
        obtain ⟨right, still', marked'⟩ := two.kept id account finished' kept
        rw [← names_of_perm same] at marked'
        exact .inr ⟨account, left, right, still, still', marked, marked'⟩

theorem TakenIn.agrees (one : TakenIn start received undecodable recorded heard first)
    (two : TakenIn start received undecodable recorded heard' second)
    (same : heard.Perm heard') : Agrees first second := by
  obtain ⟨ended, tallied, finished⟩ := one.tallied
  obtain ⟨ended', tallied', finished'⟩ := two.tallied
  have ends : ended.Perm ended' :=
    finished.trans ((jobsFinished_perm same).trans finished'.symm)
  have alike := one.ledger.symm.trans two.ledger
  constructor
  · refine ⟨fun key => ?_, alike.executions, alike.latest, alike.resources, alike.notes⟩
    rw [tallied.jobs, tallied'.jobs]
    simp only [(ends.map jobKey).mem_iff]
  · intro id
    rcases tallied.account_cases tallied' same ends id with
      ⟨gone, gone'⟩ | ⟨account, left, right, still, still', _⟩
    · rw [gone, gone']
    · rw [still, still']
      rfl
  · intro id task
    rw [task?_eq, task?_eq]
    rcases tallied.account_cases tallied' same ends id with
      ⟨gone, gone'⟩ | ⟨account, left, right, still, still', marked, marked'⟩
    · rw [gone, gone']
    · rw [still, still']
      exact (marked task).trans (marked' task).symm
  · refine SortedMap.ext_get? fun id => ?_
    have contains : first.accountant.retired.contains id =
        second.accountant.retired.contains id := by
      rw [tallied.retired, tallied'.retired, decide_eq_decide.2 ends.mem_iff]
    rw [SortedMap.contains, SortedMap.contains] at contains
    generalize first.accountant.retired.get? id = left at contains ⊢
    generalize second.accountant.retired.get? id = right at contains ⊢
    cases left <;> cases right <;> first | rfl | cases contains
  · intro node
    rw [tallied.loads, tallied'.loads, (tasksEnded_perm same).countP_eq]
  · have ignored : first.metrics.eventsIgnored = second.metrics.eventsIgnored := by
      have left := tallied.ignored
      have right := tallied'.ignored
      rw [(tasksEnded_perm same).length_eq, same.length_eq, ← right] at left
      exact (UInt64.add_left_inj _).1 left
    have jobs : first.metrics.jobsFinished = second.metrics.jobsFinished := by
      rw [tallied.finished, tallied'.finished, ends.length_eq]
    exact Metrics.eq_of_elsewhere (one.elsewhere.trans two.elsewhere.symm)
      (one.received.trans two.received.symm) ignored
      (one.undecodable.trans two.undecodable.symm) jobs (one.recorded.trans two.recorded.symm)
  · exact tallied.announced.trans ((ends.append_left _).trans tallied'.announced.symm)
  · exact one.undisturbed.symm.trans two.undisturbed

/-! ## Messages that are no reports -/

theorem dropped_add (hub : Hub) (one more : Nat) :
    (hub.dropped one).dropped more = hub.dropped (more + one) := by
  rw [dropped, dropped, dropped, UInt64.ofNat_add, UInt64.add_comm (UInt64.ofNat more)]
  simp only [count, UInt64.add_assoc]

/-- Such messages make no difference to the question whether a job is finished. -/
theorem finishIfComplete_dropped (hub : Hub) (count : Nat) (id : String) (now : Instant) :
    ((hub.dropped count).finishIfComplete id now).1 =
      (hub.finishIfComplete id now).1.dropped count := by
  cases complete : hub.isComplete id with
  | false =>
      have complete' : (hub.dropped count).isComplete id = false := complete
      rw [finishIfComplete_of_incomplete complete, finishIfComplete_of_incomplete complete']
  | true =>
      have complete' : (hub.dropped count).isComplete id = true := complete
      obtain ⟨job, found, after⟩ := finishIfComplete_of_complete complete now
      obtain ⟨job', found', after'⟩ := finishIfComplete_of_complete complete' now
      have found' : hub.ledger.job? id = .ok (some job') := found'
      cases found.symm.trans found'
      rw [after, after']
      rfl

/-- Nor to what becomes of a report. -/
theorem onCompletion_dropped (hub : Hub) (count : Nat) (completion : Completion) (now : Instant) :
    ((hub.dropped count).onCompletion completion now).1 =
      (hub.onCompletion completion now).1.dropped count := by
  have accountant : (hub.dropped count).accountant = hub.accountant := rfl
  rw [onCompletion, onCompletion, awaitAccount, awaitAccount, accountant]
  by_cases held : hub.accountant.isHeld completion.job = true
  · rw [if_pos held, if_pos held]
    rfl
  · rw [if_neg held, if_neg held]
    cases hub.accountant.account? completion.job with
    | none => rfl
    | some account =>
        dsimp only [applyState]
        rw [accountant]
        generalize hub.accountant.apply completion.job completion.task completion.taskState = result
        obtain ⟨accountant, recorded⟩ := result
        cases recorded with
        | updated => exact finishIfComplete_dropped { hub with accountant := accountant } ..
        | duplicate =>
            exact finishIfComplete_dropped
              ({ hub with accountant := accountant }.count Metrics.eventIgnored) ..
        | unknown =>
            exact finishIfComplete_dropped
              ({ hub with accountant := accountant }.count Metrics.eventIgnored) ..

theorem record_dropped (hub : Hub) (count : Nat) (completion : Completion) (now : Instant) :
    ((hub.dropped count).record completion now).1 =
      (hub.record completion now).1.dropped count := by
  have ledger : (hub.dropped count).ledger = hub.ledger := rfl
  rw [record, record, ledger]
  rcases hub.ledger.record completion now with ⟨ledger, error | recording⟩ <;> rfl

theorem takeReport_dropped (hub : Hub) (count : Nat) (completion : Completion) (now : Instant) :
    (hub.dropped count).takeReport completion now =
      (hub.takeReport completion now).dropped count := by
  have counted : (hub.dropped count).count Metrics.eventReceived =
      (hub.count Metrics.eventReceived).dropped count := rfl
  rw [takeReport, takeReport, counted, record_dropped, onCompletion_dropped]

theorem takeMessage_dropped (hub : Hub) (count : Nat) (message : Bytes) (now : Instant) :
    (hub.dropped count).takeMessage message now =
      (hub.takeMessage message now).dropped count := by
  rw [takeMessage, takeMessage]
  cases Wire.decodeCompletion message with
  | error error =>
      show (hub.dropped count).dropped 1 = (hub.dropped 1).dropped count
      rw [dropped_add, dropped_add, Nat.add_comm]
  | ok completion => exact takeReport_dropped hub count completion now

theorem takeMessages_cons (hub : Hub) (message : Bytes) (rest : List Bytes) (now : Instant) :
    hub.takeMessages (message :: rest) now = (hub.takeMessage message now).takeMessages rest now :=
  rfl

theorem takeMessages_dropped (hub : Hub) (count : Nat) (messages : List Bytes) (now : Instant) :
    (hub.dropped count).takeMessages messages now =
      (hub.takeMessages messages now).dropped count := by
  induction messages generalizing hub with
  | nil => rfl
  | cons message rest ih =>
      rw [takeMessages_cons, takeMessages_cons, ← ih, takeMessage_dropped]

/-- Without the messages that are no reports, everything but their count is the same. -/
theorem takeMessages_filter (hub : Hub) (messages : List Bytes) (now : Instant) :
    hub.takeMessages messages now =
      (hub.takeMessages (messages.filter Wire.isReport) now).dropped
        (Wire.undecodable messages) := by
  induction messages generalizing hub with
  | nil =>
      show hub = hub.dropped 0
      rw [dropped, Hub.count]
      simp
  | cons message rest ih =>
      rw [takeMessages_cons, ih]
      cases isReport : Wire.isReport message with
      | false =>
          have refused : hub.takeMessage message now = hub.dropped 1 := by
            obtain ⟨error, read⟩ := Wire.isReport_eq_false_iff.1 isReport
            rw [takeMessage, read]
            rfl
          rw [refused, takeMessages_dropped, dropped_add,
            List.filter_cons_of_neg (by simp [isReport]), Wire.undecodable, Wire.undecodable,
            List.countP_cons_of_pos (by simp [isReport])]
      | true =>
          rw [List.filter_cons_of_pos isReport, takeMessages_cons, Wire.undecodable,
            Wire.undecodable, List.countP_cons_of_neg (by simp [isReport])]

/-- Dealing with every message when it arrives is one of the schedules. -/
theorem scheduled_takeMessages (hub : Hub) (messages : List Bytes) (now : Instant) :
    hub.Scheduled messages (hub.takeMessages messages now) := by
  induction messages generalizing hub with
  | nil => exact .refl
  | cons message rest ih =>
      refine .trans ?_ (ih (hub.takeMessage message now))
      rw [takeMessage]
      cases read : Wire.decodeCompletion message with
      | error error => exact .single (.drop (Wire.isReport_eq_false_iff.2 ⟨error, read⟩))
      | ok completion =>
          have taken : Intake.Step ⟨message :: rest, [], [], hub⟩
              ⟨rest, [completion], [completion], hub.count Metrics.eventReceived⟩ := .take read
          have settled (hub : Hub) : Intake.Step ⟨rest, [], [completion], hub⟩
              ⟨rest, [], [], (hub.onCompletion completion now).1⟩ :=
            @Intake.Step.settle rest [] [] [] hub completion now
          exact ((Relation.ReflTransGen.single taken).tail (.record now)).tail (settled _)

/-! ## The result -/

/-- What taking in messages owes to the schedule: nothing but times, the ends of tasks that were
reported with different ends, and the order of announcements. -/
structure ScheduleFree (hub : Hub) (messages : List Bytes) (now : Instant) : Prop where
  /-- Dealing with every message when it arrives is one of the schedules. -/
  inOrder : hub.Scheduled messages (hub.takeMessages messages now)
  /-- All others come to the same. -/
  agree : ∀ after, hub.Scheduled messages after → Agrees after (hub.takeMessages messages now)
  /-- Without the messages that are no reports, only their count differs. -/
  isolated : hub.takeMessages messages now =
    (hub.takeMessages (messages.filter Wire.isReport) now).dropped (Wire.undecodable messages)
  /-- So it does whatever the two schedules are. -/
  apart : ∀ after fewer, hub.Scheduled messages after →
    hub.Scheduled (messages.filter Wire.isReport) fewer →
    Agrees after (fewer.dropped (Wire.undecodable messages))

/-- If no account is held, so that no report waits for one, every schedule comes to the same. -/
theorem scheduleFree_takeMessages (hub : Hub) (free : hub.accountant.holder = none)
    (filed : hub.ledger.Filed) (messages : List Bytes) (now : Instant) :
    ScheduleFree hub messages now where
  inOrder := scheduled_takeMessages hub messages now
  agree := by
    intro after scheduled
    obtain ⟨heard, perm, one⟩ := scheduled.takenIn free filed
    obtain ⟨heard', perm', two⟩ := (scheduled_takeMessages hub messages now).takenIn free filed
    exact one.agrees two (perm.trans perm'.symm)
  isolated := takeMessages_filter hub messages now
  apart := by
    intro after fewer scheduled scheduled'
    obtain ⟨same, none⟩ := Wire.reports_filter messages
    obtain ⟨heard, perm, one⟩ := scheduled.takenIn free filed
    obtain ⟨heard', perm', two⟩ := scheduled'.takenIn free filed
    rw [same] at perm' two
    rw [none] at two
    have more := two.dropped (Wire.undecodable messages)
    rw [Nat.zero_add] at more
    exact one.agrees more (perm.trans perm'.symm)

/-- Both tasks are reported on, one of them twice and with different ends.  In between comes
something that is no report. -/
def pairMessages : List Bytes :=
  [Wire.encodeCompletion (linkChecked 1), [255],
    Wire.encodeCompletion { linkChecked 1 with verdict := .error },
    Wire.encodeCompletion (linkChecked 0)]

theorem scheduleFree_pairMessages :
    (pairHub.startJob "7" .epoch).1.accountant.holder = none ∧
      (pairHub.startJob "7" .epoch).1.ledger.Filed ∧
      Wire.reports pairMessages =
        [linkChecked 1, { linkChecked 1 with verdict := .error }, linkChecked 0] ∧
      Wire.undecodable pairMessages = 1 ∧
      ScheduleFree (pairHub.startJob "7" .epoch).1 pairMessages .epoch := by
  have orderly : pairHub.Orderly := ⟨sound_empty, pairHub_filed, rfl⟩
  have started := (handed_startJob orderly "7" .epoch).touched.orderly
  have first : Wire.decodeCompletion (Wire.encodeCompletion (linkChecked 1)) =
      .ok (linkChecked 1) :=
    Wire.decodeCompletion_encodeCompletion ⟨by decide, by decide, by decide, by decide⟩
      (by decide +kernel)
  have second : Wire.decodeCompletion
      (Wire.encodeCompletion { linkChecked 1 with verdict := .error }) =
      .ok { linkChecked 1 with verdict := .error } :=
    Wire.decodeCompletion_encodeCompletion ⟨by decide, by decide, by decide, by decide⟩
      (by decide +kernel)
  have third : Wire.decodeCompletion (Wire.encodeCompletion (linkChecked 0)) =
      .ok (linkChecked 0) :=
    Wire.decodeCompletion_encodeCompletion ⟨by decide, by decide, by decide, by decide⟩
      (by decide +kernel)
  have refused : Wire.isReport [255] = false := by decide +kernel
  obtain ⟨error, noise⟩ := Wire.isReport_eq_false_iff.1 refused
  refine ⟨started.free, started.filed, ?_, ?_,
    scheduleFree_takeMessages _ started.free started.filed pairMessages .epoch⟩
  · simp [Wire.reports, pairMessages, first, second, third, noise, Except.toOption]
  · simp [Wire.undecodable, Wire.isReport, pairMessages, first, second, third, noise, Except.isOk,
      Except.toBool]

end Hub

end MediaHarvest
