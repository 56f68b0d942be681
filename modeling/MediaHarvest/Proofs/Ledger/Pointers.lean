import MediaHarvest.Proofs.Ledger.Recordings
import Mathlib.Data.List.Induction

/-!
# What a resource points to

A resource points to the execution that last renewed a latest record of it.  A report is held
against the record of its own key only, so a resource with several keys points to the last delivery
that led its key, which need not be the newest one.  Where all reports on a resource have one key,
it points to the newest one, and repeated or late ones change nothing.
-/

namespace MediaHarvest

/-! ## Pointers -/

/-- The execution that a resource points to, with the links that led there. -/
def Resource.pointer (resource : Resource) : Option String × List String :=
  (resource.lastExecution, resource.redirectionPath)

/-- What a report lets its resource point to. -/
def Report.pointer (report : Report) : Option String × List String :=
  (some report.executionId, report.completion.outcome.redirectionPath)

/-- No earlier delivery on the key of the report ended after it. -/
def Report.Leads (report : Report) (earlier : List Delivery) : Prop :=
  ∀ other ∈ earlier, other.report.key = report.key →
    other.report.completedAt ≤ report.completedAt

instance (report : Report) (earlier : List Delivery) : Decidable (report.Leads earlier) := by
  unfold Report.Leads
  infer_instance

/-- The last delivery on a resource that led its key when it came in; the deliveries are given with
the last one first. -/
def leader? (id : String) : List Delivery → Option Delivery
  | [] => none
  | last :: earlier =>
      if last.report.completion.resource = id ∧ last.report.Leads earlier then some last
      else leader? id earlier

/-- The deliveries on a resource. -/
def onResource (id : String) (deliveries : List Delivery) : List Delivery :=
  deliveries.filter fun delivery => delivery.report.completion.resource = id

/-- All deliveries on a resource have the same key. -/
def OneKey (id : String) (deliveries : List Delivery) : Prop :=
  ∀ one ∈ onResource id deliveries, ∀ two ∈ onResource id deliveries,
    one.report.key = two.report.key

namespace Ledger

/-- The latest records and the pointers of the resources are as before. -/
structure SamePointers (before after : Ledger) : Prop where
  latest : SameLatest before after
  pointers : ∀ id resource, before.resource? id = .ok (some resource) →
    ∃ other, after.resource? id = .ok (some other) ∧ other.pointer = resource.pointer
  /-- Resources still stand under their own names. -/
  named : before.Named → after.Named

/-- A ledger points from a resource to what was delivered last with a lead, or as at the start. -/
def Points (ledger : Ledger) (id : String) (start : Option String × List String)
    (deliveries : List Delivery) : Prop :=
  ∃ resource, ledger.resource? id = .ok (some resource) ∧
    resource.pointer = ((leader? id deliveries.reverse).map (·.report.pointer)).getD start

variable {ledger : Ledger} {report : Report} {key : LatestKey} {stored : Option Latest}
  {deliveries : List Delivery} {id : String} {resource : Resource} {now : Instant}

/-- A report renews what is shown for its key if no delivery on the key ended after it. -/
theorem Shows.renews_iff (shows : ledger.Shows key deliveries)
    (found : ledger.latest? key = .ok stored) :
    report.Renews stored ↔
      ∀ other ∈ deliveries, other.report.completedAt ≤ report.completedAt := by
  cases deliveries with
  | nil =>
      have bare : ledger.latest? key = .ok none := shows
      rw [found] at bare
      cases bare
      simp
  | cons first rest =>
      obtain ⟨newest, isNewest, stands⟩ := shows
      rw [found] at stands
      cases stands
      rw [Report.renews_some]
      constructor
      · exact fun later other mem => Instant.le_trans (isNewest.le mem) later
      · exact fun all => all newest isNewest.mem

/-- A report on a resource points it to its execution if it leads its key. -/
theorem resource?_record_of_seen (named : ledger.Named) (sees : ledger.Sees report)
    (shows : ledger.Shows report.key (onKey report.key deliveries))
    (about : ledger.resource? report.completion.resource = .ok (some resource)) (now : Instant) :
    (ledger.record report.completion now).1.resource? report.completion.resource =
      .ok (some (if report.Leads deliveries then
        resource.withLastExecution report.executionId report.completion.outcome.redirectionPath
      else resource)) := by
  obtain ⟨stored, found⟩ := shows.readable
  have leads : report.Renews stored ↔ report.Leads deliveries := by
    rw [shows.renews_iff found]
    simp only [onKey, List.mem_filter, decide_eq_true_eq, and_imp, Report.Leads]
  obtain ⟨middle, fresh, appended, same⟩ := record_of_seen sees about found now
  have kept := resource?_of_resources_eq appended.resources
  rw [same]
  by_cases renews : report.Renews stored
  · have execution : (report.replacing now stored).execution = report.executionId := by
      cases stored <;> rfl
    rw [if_pos renews, if_pos (leads.1 renews),
      resource?_renew (named.of_resources_eq appended.resources) ((kept _).trans about),
      if_pos rfl, execution]
    rfl
  · rw [if_neg renews, if_neg (mt leads.2 renews)]
    exact (kept _).trans about

/-- One more delivery becomes what its resource points to if it leads its key. -/
theorem Points.record {start : Option String × List String}
    (points : ledger.Points id start deliveries) (named : ledger.Named)
    (delivery : Delivery) (sees : ledger.Sees delivery.report)
    (shows : delivery.report.completion.resource = id →
      ledger.Shows delivery.report.key (onKey delivery.report.key deliveries)) :
    (ledger.record delivery.report.completion delivery.now).1.Points id start
      (deliveries ++ [delivery]) := by
  obtain ⟨resource, about, pointer⟩ := points
  rw [Points, List.reverse_append, List.reverse_singleton, List.singleton_append, leader?]
  by_cases own : delivery.report.completion.resource = id
  · subst own
    refine ⟨_, resource?_record_of_seen named sees (shows rfl) about delivery.now, ?_⟩
    have leads : delivery.report.Leads deliveries.reverse ↔ delivery.report.Leads deliveries := by
      simp only [Report.Leads, List.mem_reverse]
    by_cases leading : delivery.report.Leads deliveries
    · rw [if_pos leading, if_pos ⟨rfl, leads.2 leading⟩]
      rfl
    · rw [if_neg leading, if_neg fun both => leading (leads.1 both.2)]
      exact pointer
  · rcases resource?_record named delivery.report.completion delivery.now id with same | ⟨other, _⟩
    · rw [if_neg fun both => own both.1]
      exact ⟨resource, same.trans about, pointer⟩
    · exact absurd other.symm own

end Ledger

/-! ## A single key -/

section OneKey

variable {id : String} {deliveries : List Delivery} {delivery : Delivery}

theorem mem_onResource :
    delivery ∈ onResource id deliveries ↔
      delivery ∈ deliveries ∧ delivery.report.completion.resource = id := by
  simp [onResource]

theorem OneKey.of_append (one : OneKey id (deliveries ++ [delivery])) : OneKey id deliveries := by
  have inside {other : Delivery} (mem : other ∈ onResource id deliveries) :
      other ∈ onResource id (deliveries ++ [delivery]) := by
    rw [onResource, List.filter_append]
    exact List.mem_append_left _ mem
  exact fun first mem second mem' => one first (inside mem) second (inside mem')

/-- Where all deliveries on a resource have one key, the last one that led it is the newest. -/
theorem leader?_of_oneKey (one : OneKey id deliveries) (some : onResource id deliveries ≠ []) :
    ∃ newest, leader? id deliveries.reverse = .some newest ∧
      Newest newest (onResource id deliveries) := by
  induction deliveries using List.reverseRecOn with
  | nil => exact absurd rfl some
  | append_singleton deliveries last ih =>
      rw [List.reverse_append, List.reverse_singleton, List.singleton_append, leader?]
      by_cases own : last.report.completion.resource = id
      · have split : onResource id (deliveries ++ [last]) = onResource id deliveries ++ [last] := by
          simp [onResource, own]
        by_cases leads : last.report.Leads deliveries.reverse
        · refine ⟨last, if_pos ⟨own, leads⟩, split ▸ .append_self fun other mem => ?_⟩
          obtain ⟨inside, _⟩ := mem_onResource.1 mem
          apply leads other (List.mem_reverse.2 inside)
          exact one other (split ▸ List.mem_append_left _ mem) last (by simp [split])
        · rw [if_neg fun both => leads both.2, split]
          simp only [Report.Leads, List.mem_reverse, not_forall] at leads
          obtain ⟨other, inside, key, later⟩ := leads
          have mem : other ∈ onResource id deliveries :=
            mem_onResource.2 ⟨inside, (congrArg LatestKey.resource key).trans own⟩
          obtain ⟨newest, leader, isNewest⟩ := ih one.of_append (List.ne_nil_of_mem mem)
          refine ⟨newest, leader, isNewest.append_of_lt fun upper => later ?_⟩
          exact Instant.le_trans (isNewest.le mem) upper
      · have same : onResource id (deliveries ++ [last]) = onResource id deliveries := by
          simp [onResource, own]
        rw [if_neg fun both => own both.1, same]
        exact ih one.of_append (same ▸ some)

end OneKey

/-! ## Every history -/

namespace Recordings

variable {quiet quiet' : Ledger → Ledger → Prop} {start ledger : Ledger} {id : String}
  {resource : Resource} {deliveries : List Delivery}

theorem mono (weaker : ∀ before after, quiet before after → quiet' before after)
    (history : Recordings quiet start ledger deliveries) :
    Recordings quiet' start ledger deliveries := by
  induction history with
  | start => exact .start
  | elsewhere _ step ih => exact ih.elsewhere (weaker _ _ step)
  | record _ sees now ih => exact ih.record sees now

/-- Throughout a history a resource points to what was delivered last with a lead. -/
theorem points (keyed : start.Keyed) (named : start.Named)
    (stored : start.resource? id = .ok (some resource))
    (new : ∀ key, key.resource = id → start.latest? key = .ok none)
    (history : Recordings Ledger.SamePointers start ledger deliveries) :
    ledger.Named ∧ ledger.Points id resource.pointer deliveries := by
  induction history with
  | start => exact ⟨named, resource, stored, rfl⟩
  | elsewhere _ step ih =>
      obtain ⟨named, last, about, pointer⟩ := ih
      obtain ⟨other, found, same⟩ := step.pointers id last about
      exact ⟨step.named named, other, found, same.trans pointer⟩
  | @record ledger deliveries report history sees now ih =>
      refine ⟨ih.1.record _ _, ih.2.record ih.1 ⟨report, now⟩ sees fun own => ?_⟩
      exact ((history.mono fun _ _ step => step.latest).shows keyed (new report.key own)).2

end Recordings

/-- What the pointer of a resource owes to the deliveries on it. -/
structure FollowsLeader (id : String) (start : Option String × List String) (ledger : Ledger)
    (deliveries : List Delivery) : Prop where
  /-- It is what the last delivery with a lead says, or as at the start. -/
  points : ledger.Points id start deliveries
  /-- If all deliveries on the resource have one key, it is what the newest of them says. -/
  newest : OneKey id deliveries → onResource id deliveries ≠ [] →
    ∃ newest resource, Newest newest (onResource id deliveries) ∧
      ledger.resource? id = .ok (some resource) ∧ resource.pointer = newest.report.pointer
  /-- Then a report that was recorded before, or that ended earlier than one that was, changes
  nothing, provided that different reports ended at different times. -/
  again : OneKey id deliveries →
    (∀ one ∈ onResource id deliveries, ∀ two ∈ onResource id deliveries,
      one.report.completedAt = two.report.completedAt → one.report = two.report) →
    ∀ known ∈ onResource id deliveries, ∀ report now, ledger.Sees report →
      report = known.report ∨ report.key = known.report.key ∧
        report.completedAt < known.report.completedAt →
      ∃ before after, ledger.resource? id = .ok (some before) ∧
        (ledger.record report.completion now).1.resource? id = .ok (some after) ∧
        after.pointer = before.pointer

/-- Whatever was recorded in whatever order, a resource points to the last delivery with a lead. -/
theorem Recordings.followsLeader {start ledger : Ledger} {id : String} {resource : Resource}
    {deliveries : List Delivery} (keyed : start.Keyed) (named : start.Named)
    (stored : start.resource? id = .ok (some resource))
    (new : ∀ key, key.resource = id → start.latest? key = .ok none)
    (history : Recordings Ledger.SamePointers start ledger deliveries) :
    FollowsLeader id resource.pointer ledger deliveries := by
  obtain ⟨named', points⟩ := history.points keyed named stored new
  have newest (one : OneKey id deliveries) (some : onResource id deliveries ≠ []) :
      ∃ newest resource, Newest newest (onResource id deliveries) ∧
        ledger.resource? id = .ok (.some resource) ∧
        resource.pointer = newest.report.pointer := by
    obtain ⟨newest, leader, isNewest⟩ := leader?_of_oneKey one some
    obtain ⟨last, about, pointer⟩ := points
    rw [leader] at pointer
    exact ⟨newest, last, isNewest, about, pointer⟩
  refine ⟨points, newest, ?_⟩
  intro one distinct known mem report now sees earlier
  obtain ⟨last, before, isNewest, about, pointer⟩ := newest one (List.ne_nil_of_mem mem)
  have key : report.key = known.report.key := by
    rcases earlier with rfl | ⟨same, _⟩
    · rfl
    · exact same
  have own : report.completion.resource = id :=
    (congrArg LatestKey.resource key).trans (mem_onResource.1 mem).2
  subst own
  have shows :=
    ((history.mono fun _ _ step => step.latest).shows keyed (new report.key rfl)).2
  have written := Ledger.resource?_record_of_seen named' sees shows about now
  refine ⟨before, _, about, written, ?_⟩
  split
  · next leads =>
    -- a report that leads is the newest one once more
    have upper : last.report.completedAt ≤ report.completedAt := by
      obtain ⟨inside, _⟩ := mem_onResource.1 isNewest.mem
      exact leads last inside ((one last isNewest.mem known mem).trans key.symm)
    rcases earlier with rfl | ⟨_, less⟩
    · have same := distinct known mem last isNewest.mem
        (Instant.le_antisymm (isNewest.le mem) upper)
      rw [pointer, ← same]
      rfl
    · exact absurd (Instant.le_trans (isNewest.le mem) upper) less
  · rfl

/-! ## A page with one key and with two -/

/-- A check of the page, and an earlier one that comes in late. -/
def checks : List Delivery :=
  [⟨false, .checkLink, true⟩, ⟨true, .checkLink, false⟩].map PageEvent.delivery

theorem oneKey_checks : OneKey page.id checks := by
  unfold OneKey
  decide +kernel

theorem Recordings.followsLeader_page :
    pageLedger.Keyed ∧ pageLedger.Named ∧ pageLedger.resource? page.id = .ok (some page) ∧
      (∀ key : LatestKey, key.resource = page.id → pageLedger.latest? key = .ok none) ∧
      Recordings Ledger.SamePointers pageLedger (pageLedger.recordAll checks) checks ∧
      OneKey page.id checks ∧
      FollowsLeader page.id page.pointer (pageLedger.recordAll checks) checks := by
  have new (key : LatestKey) (_ : key.resource = page.id) : pageLedger.latest? key = .ok none :=
    Ledger.latest?_of_bare rfl key
  exact ⟨pageLedger_keyed, pageLedger_named, pageLedger_page, new, recordings_page _,
    oneKey_checks,
    followsLeader pageLedger_keyed pageLedger_named pageLedger_page new (recordings_page _)⟩

/-- A check of the page, which comes in once more after a later download. -/
def checkedAgain : List Delivery :=
  [⟨false, .checkLink, false⟩, ⟨false, .unconditionalDownload, true⟩,
    ⟨false, .checkLink, false⟩].map PageEvent.delivery

/-- With two keys a report that comes in again takes the page back from the newest execution. -/
theorem pointer_of_checkedAgain :
    Recordings Ledger.SamePointers pageLedger (pageLedger.recordAll checkedAgain) checkedAgain ∧
      (∀ one ∈ onResource page.id checkedAgain, ∀ two ∈ onResource page.id checkedAgain,
        one.report.completedAt = two.report.completedAt → one.report = two.report) ∧
      ∃ newest resource, Newest newest (onResource page.id checkedAgain) ∧
        (pageLedger.recordAll checkedAgain).resource? page.id = .ok (some resource) ∧
        resource.pointer ≠ newest.report.pointer := by
  have history : Recordings Ledger.SamePointers pageLedger (pageLedger.recordAll checkedAgain)
      checkedAgain := recordings_page _
  obtain ⟨_, resource, about, pointer⟩ := history.points pageLedger_keyed pageLedger_named
    pageLedger_page fun key _ => Ledger.latest?_of_bare rfl key
  let check : PageEvent := ⟨false, .checkLink, false⟩
  let download : PageEvent := ⟨false, .unconditionalDownload, true⟩
  have newest : Newest download.delivery (onResource page.id checkedAgain) := by
    refine ⟨[check.delivery], [check.delivery], by decide +kernel, ?_, ?_⟩
    · simp only [List.forall_mem_singleton]
      decide
    · simp only [List.forall_mem_singleton]
      decide
  have leader : leader? page.id checkedAgain.reverse = some check.delivery := by decide +kernel
  have back : resource.pointer = check.report.pointer := by
    rw [pointer, leader]
    rfl
  refine ⟨history, by decide +kernel, download.delivery, resource, newest, about, ?_⟩
  rw [back]
  decide

end MediaHarvest
