import MediaHarvest.Proofs.Hub.Recovery
import MediaHarvest.Proofs.Ledger.Overwriting

/-!
# Runs in which records are overwritten

Between the calls of a run others may damage the record of a job, take it away or put it back.  The
accounts know nothing of it, so what holds of them in every run holds in these too.
-/

namespace MediaHarvest

open Ledger Accountant

/-- What can happen to a hub. -/
inductive Incident where
  | call (call : Call) (now : Instant)
  /-- Others put something else, or nothing, in place of the record of a job. -/
  | overwrite (job : String) (bytes : Option Bytes)

namespace Incident

/-- Lets it happen; gives the hub afterwards and what the journal notes. -/
def happen (incident : Incident) (hub : Hub) : Hub × List Entry :=
  match incident with
  | .call made now => made.perform now hub
  | .overwrite job bytes => ({ hub with ledger := hub.ledger.overwrite job bytes }, [])

/-- No job is put in the place of another one. -/
def Proper : Incident → Prop
  | .call .. => True
  | .overwrite id bytes =>
      ∀ text job, bytes = some text → readValue Job.codec text = .ok job → job.id = id

end Incident

namespace Hub

variable {hub after : Hub} {id : String} {incident : Incident} {now : Instant}

/-- Undergoes incidents one after another; gives the hub afterwards and the journal. -/
def undergo : List Incident → Hub → Hub × List Entry
  | [], hub => (hub, [])
  | incident :: rest, hub =>
      let first := incident.happen hub
      let others := undergo rest first.1
      (others.1, first.2 ++ others.2)

theorem undergo_append (first second : List Incident) (hub : Hub) :
    undergo (first ++ second) hub =
      ((undergo second (undergo first hub).1).1,
        (undergo first hub).2 ++ (undergo second (undergo first hub).1).2) := by
  induction first generalizing hub with
  | nil => rfl
  | cons incident rest ih =>
      rw [List.cons_append, undergo, ih]
      simp only [undergo, List.append_assoc]

/-! ## Order and loads -/

theorem orderly_happen (orderly : hub.Orderly) (proper : incident.Proper) :
    (incident.happen hub).1.Orderly := by
  cases incident with
  | call call now => exact (performed orderly call now).orderly orderly
  | overwrite id bytes => exact ⟨orderly.sound, orderly.filed.overwrite proper, orderly.free⟩

theorem Weighed.happen (weighed : hub.Weighed) (orderly : hub.Orderly) (incident : Incident) :
    (incident.happen hub).1.Weighed := by
  cases incident with
  | call call now => exact weighed.perform orderly call now
  | overwrite id bytes =>
      exact ⟨weighed.balanced, weighed.concluded.of_executions_eq (executions_overwrite ..)⟩

theorem orderly_undergo (incidents : List Incident) (hub : Hub) (orderly : hub.Orderly)
    (proper : ∀ incident ∈ incidents, incident.Proper) :
    (undergo incidents hub).1.Orderly := by
  induction incidents generalizing hub with
  | nil => exact orderly
  | cons incident rest ih =>
      have next := orderly_happen orderly (proper incident List.mem_cons_self)
      exact ih _ next fun other mem => proper other (List.mem_cons_of_mem _ mem)

theorem Weighed.undergo (incidents : List Incident) (hub : Hub) (weighed : hub.Weighed)
    (orderly : hub.Orderly) (proper : ∀ incident ∈ incidents, incident.Proper) :
    (undergo incidents hub).1.Weighed := by
  induction incidents generalizing hub with
  | nil => exact weighed
  | cons incident rest ih =>
      have next := orderly_happen orderly (proper incident List.mem_cons_self)
      exact ih _ (weighed.happen orderly incident) next fun other mem =>
        proper other (List.mem_cons_of_mem _ mem)

/-- Whatever happens, exactly the jobs that were declared finished are announced. -/
theorem announced_undergo (incidents : List Incident) (hub : Hub) (orderly : hub.Orderly)
    (proper : ∀ incident ∈ incidents, incident.Proper) :
    (undergo incidents hub).1.announced =
      hub.announced ++ finishedJobs (undergo incidents hub).2 := by
  induction incidents generalizing hub with
  | nil => exact (List.append_nil _).symm
  | cons incident rest ih =>
      have next := orderly_happen orderly (proper incident List.mem_cons_self)
      have first : (incident.happen hub).1.announced =
          hub.announced ++ finishedJobs (incident.happen hub).2 := by
        cases incident with
        | call call now => exact (announced_performed (performed orderly call now)).1
        | overwrite id bytes => exact (List.append_nil _).symm
      have others := ih _ next fun other mem => proper other (List.mem_cons_of_mem _ mem)
      rw [undergo]
      dsimp only
      rw [others, first, finishedJobs_append, List.append_assoc]

/-! ## How often a job is declared finished -/

/-- A job is not declared finished and stays retired if it was, or it is declared finished once and
retired. -/
inductive Declared (hub after : Hub) (id : String) (noted : List Entry) : Prop where
  | not (silent : (finishedJobs noted).count id = 0)
      (stays : hub.accountant.retired.contains id = true →
        after.accountant.retired.contains id = true)
  | once (active : hub.accountant.retired.contains id = false)
      (said : (finishedJobs noted).count id = 1)
      (gone : after.accountant.retired.contains id = true)

/-- An answer declares its job finished if it says so. -/
theorem Judged.declared {answer : Except CompletionError CompletionStatus} {noted : List Entry}
    (judged : Judged hub after id answer) (names : finishedJobs noted = finishedNames id answer) :
    Declared hub after id noted := by
  cases judged with
  | kept unfinished retired =>
      refine .not ?_ (by rw [retired]; exact fun gone => gone)
      rw [names, finishedNames_of_unfinished unfinished, List.count_nil]
  | finished active gone =>
      refine .once active ?_ gone
      rw [names, finishedNames, List.count_singleton_self]

theorem declared_perform (orderly : hub.Orderly) (call : Call) (now : Instant) (id : String) :
    Declared hub (call.perform now hub).1 id (call.perform now hub).2 := by
  have stays (gone : hub.accountant.retired.contains id = true) :=
    retired_perform orderly gone call now
  have silent (names : List String) :
      (finishedJobs (names.map (Entry.sent id))).count id = 0 := by
    rw [finishedJobs_map_sent, List.count_nil]
  by_cases own : call.job? = some id
  · cases call with
    | dispatch name task =>
        cases own
        exact .not (silent _) stays
    | dispatchJob name =>
        cases own
        exact .not (silent _) stays
    | startJob name =>
        cases own
        exact .not (silent _) stays
    | stopJob name => exact .not rfl stays
    | report completion =>
        cases own
        exact (judged_onCompletion orderly completion now).declared (finishedJobs_reported ..)
    | reconcile name =>
        cases own
        exact (judged_reconcile orderly id now).declared (finishedJobs_reconciled ..)
    | record completion => cases own
    | removeJob name => exact .not rfl stays
    | takeTask node => cases own
    | closeNode node => cases own
  · exact .not ((performed orderly call now).aside id own).2.1 stays

theorem Declared.trans {middle : Hub} {first second : List Entry}
    (one : Declared hub middle id first) (two : Declared middle after id second) :
    Declared hub after id (first ++ second) := by
  have counts : (finishedJobs (first ++ second)).count id =
      (finishedJobs first).count id + (finishedJobs second).count id := by
    rw [finishedJobs_append, List.count_append]
  cases one with
  | not silent stays =>
      cases two with
      | not silent' stays' =>
          exact .not (by rw [counts, silent, silent']) fun gone => stays' (stays gone)
      | once active said gone =>
          refine .once ?_ (by rw [counts, silent, said]) gone
          by_contra retired
          rw [stays (by simpa using retired)] at active
          cases active
  | once active said gone =>
      cases two with
      | not silent stays => exact .once active (by rw [counts, said, silent]) (stays gone)
      | once active' =>
          rw [gone] at active'
          cases active'

/-- Whatever happens, a job is declared finished at most once. -/
theorem declared_undergo (incidents : List Incident) (hub : Hub) (orderly : hub.Orderly)
    (proper : ∀ incident ∈ incidents, incident.Proper) (id : String) :
    Declared hub (undergo incidents hub).1 id (undergo incidents hub).2 := by
  induction incidents generalizing hub with
  | nil => exact .not rfl fun gone => gone
  | cons incident rest ih =>
      have first : Declared hub (incident.happen hub).1 id (incident.happen hub).2 := by
        cases incident with
        | call call now => exact declared_perform orderly call now id
        | overwrite job bytes => exact .not rfl fun gone => gone
      have next := orderly_happen orderly (proper incident List.mem_cons_self)
      exact first.trans (ih _ next fun other mem => proper other (List.mem_cons_of_mem _ mem))

end Hub

end MediaHarvest
