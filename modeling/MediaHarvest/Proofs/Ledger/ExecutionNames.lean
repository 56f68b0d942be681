import MediaHarvest.Proofs.Ledger.History

/-!
# Names of executions

An execution is named by its resource, its job and its kind, joined with hyphens, while it is stored
under a key in which they are joined with zero characters.  A hyphen may belong to the resource or to
the job, so slots can share a name and not a key: then a latest record or a resource points to either
of two executions.  Names are apart as long as it is known where to cut them.
-/

namespace MediaHarvest

theorem TaskKind.hyphen_free (kind : TaskKind) : '-' ∉ kind.name.toList := by
  cases kind <;> decide

namespace Slot

/-! ## Names of slots -/

/-- The name of the executions of a slot. -/
def name (slot : Slot) : String := Execution.idOf slot.resource slot.job slot.kind

variable {first second : Slot}

/-- Slots share a name if they have the same kind and their parts join to the same text. -/
theorem name_eq_iff : first.name = second.name ↔ first.kind = second.kind ∧
    first.resource ++ "-" ++ first.job = second.resource ++ "-" ++ second.job := by
  have joined (slot : Slot) : slot.name.toList =
      (slot.resource ++ "-" ++ slot.job).toList ++ '-' :: slot.kind.name.toList := by
    simp [name, Execution.idOf, toString, String.toList_append]
  constructor
  · intro same
    have lists := congrArg String.toList same
    rw [joined, joined] at lists
    obtain ⟨fronts, kinds⟩ := cut_at_last first.kind.hyphen_free second.kind.hyphen_free lists
    exact ⟨TaskKind.name_inj.1 (String.toList_inj.1 kinds), String.toList_inj.1 fronts⟩
  · rintro ⟨kinds, fronts⟩
    apply String.toList_inj.1
    rw [joined, joined, kinds, fronts]

/-- It is known where the names of two slots are cut: their resources or their jobs are equally long,
or have no hyphen. -/
def Cuttable (first second : Slot) : Prop :=
  first.resource.length = second.resource.length ∨ first.job.length = second.job.length ∨
    ('-' ∉ first.resource.toList ∧ '-' ∉ second.resource.toList) ∨
    ('-' ∉ first.job.toList ∧ '-' ∉ second.job.toList)

/-- Then their names are the same only if the slots are. -/
theorem Cuttable.name_inj (cuttable : first.Cuttable second) :
    first.name = second.name ↔ first = second := by
  constructor
  · intro same
    obtain ⟨kinds, joined⟩ := name_eq_iff.1 same
    have lists : first.resource.toList ++ '-' :: first.job.toList =
        second.resource.toList ++ '-' :: second.job.toList := by
      simpa [String.toList_append] using congrArg String.toList joined
    have parts : first.resource.toList = second.resource.toList ∧
        first.job.toList = second.job.toList := by
      rcases cuttable with resources | jobs | ⟨free, free'⟩ | ⟨free, free'⟩
      · rw [← String.length_toList, ← String.length_toList] at resources
        obtain ⟨resources, rest⟩ := List.append_inj lists resources
        exact ⟨resources, (List.cons.inj rest).2⟩
      · rw [← String.length_toList, ← String.length_toList] at jobs
        obtain ⟨resources, rest⟩ := List.append_inj' lists (congrArg (· + 1) jobs)
        exact ⟨resources, (List.cons.inj rest).2⟩
      · exact cut_at_first free free' lists
      · exact cut_at_last free free' lists
    rcases first with ⟨resource, job, kind⟩
    rcases second with ⟨resource', job', kind'⟩
    obtain rfl : resource = resource' := String.toList_inj.1 parts.1
    obtain rfl : job = job' := String.toList_inj.1 parts.2
    obtain rfl : kind = kind' := kinds
    rfl
  · rintro rfl
    rfl

end Slot

namespace Ledger

variable {start ledger : Ledger} {arrival : Arrival} {arrivals : List Arrival}
  {execution : Execution} {told : List Execution}

/-- What is told of is named after its slot. -/
theorem id_of_mem_toldAll (mem : execution ∈ ledger.toldAll arrivals) :
    execution.id = execution.slot.name := by
  induction arrivals generalizing ledger with
  | nil => cases mem
  | cons arrival rest ih =>
      rcases List.mem_append.1 mem with now | later
      · obtain ⟨job, resource, _, _, rfl⟩ := told?_eq_some_iff.1 (Option.mem_toList.1 now)
        rfl
      · exact ih later

/-! ## What latest records and resources point to -/

/-- A renewed record points to the execution. -/
theorem execution_of_renewal {now : Instant} {latest : Latest}
    (renewed : ledger.renewal? execution now = .ok (some latest)) :
    latest.execution = execution.id := by
  rw [renewal?] at renewed
  obtain ⟨known, found, ended⟩ := bind_eq_ok_iff.1 renewed
  cases known with
  | none =>
      cases ended
      rfl
  | some former =>
      dsimp only at ended
      split at ended
      · cases ended
        rfl
      · cases ended

/-- Latest records point to executions of their keys that were told of, and resources to executions
of theirs, or to where they pointed at the start. -/
structure PointsToTold (start : Ledger) (told : List Execution) (ledger : Ledger) : Prop where
  keyed : ledger.Keyed
  named : ledger.Named
  latest : ∀ key latest, ledger.latest? key = .ok (some latest) →
    ∃ execution ∈ told, execution.key = key ∧ latest.execution = execution.id
  resources : ∀ id resource, ledger.resource? id = .ok (some resource) →
    (∃ before, start.resource? id = .ok (some before) ∧
      resource.lastExecution = before.lastExecution) ∨
    ∃ execution ∈ told, execution.resource = id ∧ resource.lastExecution = some execution.id

theorem pointsToTold_start (bare : start.latest = ∅) (named : start.Named) :
    PointsToTold start [] start where
  keyed := fun key latest found => by cases (latest?_of_bare bare key).symm.trans found
  named := named
  latest := fun key latest found => by cases (latest?_of_bare bare key).symm.trans found
  resources := fun id resource found => .inl ⟨resource, found, rfl⟩

theorem PointsToTold.more (points : PointsToTold start told ledger) (more : List Execution) :
    PointsToTold start (told ++ more) ledger where
  keyed := points.keyed
  named := points.named
  latest := by
    intro key latest found
    obtain ⟨execution, mem, same⟩ := points.latest key latest found
    exact ⟨execution, List.mem_append_left _ mem, same⟩
  resources := by
    intro id resource found
    refine (points.resources id resource found).imp_right ?_
    rintro ⟨execution, mem, same⟩
    exact ⟨execution, List.mem_append_left _ mem, same⟩

theorem PointsToTold.of_same {after : Ledger} (points : PointsToTold start told ledger)
    (latest : after.latest = ledger.latest) (resources : after.resources = ledger.resources) :
    PointsToTold start told after where
  keyed := points.keyed.of_latest_eq latest
  named := points.named.of_resources_eq resources
  latest := by
    intro key record found
    rw [latest?_of_latest_eq latest] at found
    exact points.latest key record found
  resources := by
    intro id resource found
    rw [resource?_of_resources_eq resources] at found
    exact points.resources id resource found

/-- A renewal points to the execution that was told of last; whether this was called active does not
matter. -/
theorem PointsToTold.renew (points : PointsToTold start told ledger) (execution : Execution)
    {other : Execution} {now : Instant} {resource : Option Resource} {latest : Latest}
    (about : ledger.resource? execution.resource = .ok resource)
    (renewal : ledger.renewal? other now = .ok (some latest)) (id : other.id = execution.id)
    (key : other.key = execution.key) (path : List String) :
    PointsToTold start (told ++ [execution]) (ledger.renew latest resource path) := by
  have own : latest.key = execution.key := (renewal?_eq_some points.keyed renewal).1.trans key
  have pointer : latest.execution = execution.id := (execution_of_renewal renewal).trans id
  have last : execution ∈ told ++ [execution] := List.mem_append_right _ List.mem_cons_self
  refine ⟨(points.keyed.putLatest latest).of_latest_eq (latest_renew ..),
    points.named.renew _ _ _, fun wanted other found => ?_, fun id other found => ?_⟩
  · rw [latest?_of_latest_eq (latest_renew ..), latest?_putLatest] at found
    split at found
    · next same =>
      cases found
      exact ⟨execution, last, (same.trans own).symm, pointer⟩
    · exact (points.more _).latest wanted other found
  · rw [resource?_renew points.named about] at found
    split at found
    · next same =>
      obtain ⟨former, known, rfl⟩ := Option.map_eq_some_iff.1 (Except.ok.inj found)
      exact .inr ⟨execution, last, same.symm, congrArg some pointer⟩
    · exact (points.more _).resources id other found

theorem PointsToTold.receive (points : PointsToTold start told ledger) (arrival : Arrival) :
    PointsToTold start (told ++ (ledger.told? arrival).toList) (ledger.receive arrival) := by
  have written := ledger.written_record arrival.completion arrival.now
  rw [Ledger.receive]
  generalize (ledger.record arrival.completion arrival.now).1 = after at written ⊢
  cases written with
  | nothing => exact points.more _
  | appended found appended => exact (points.more _).of_same appended.latest appended.resources
  | @renewed middle job active latest resource found about appended renewal =>
      let execution := Execution.ofCompletion arrival.completion job
        (resource.elim true (·.active)) arrival.now
      rw [told?_eq_some_iff.2 ⟨job, resource, found, about, rfl⟩]
      have kept := points.of_same appended.latest appended.resources
      rw [← resource?_of_resources_eq appended.resources] at about
      exact kept.renew execution about renewal rfl rfl _

theorem PointsToTold.receiveAll (points : PointsToTold start told ledger)
    (arrivals : List Arrival) :
    PointsToTold start (told ++ ledger.toldAll arrivals) (ledger.receiveAll arrivals) := by
  induction arrivals generalizing ledger told with
  | nil => exact points.more _
  | cons arrival rest ih =>
      rw [toldAll, ← List.append_assoc]
      exact ih (points.receive arrival)

/-! ## What a name stands for -/

/-- A name stands for one stored execution, and for no other one. -/
def NamesOne (ledger : Ledger) (name : String) : Prop :=
  ∃! entry : Bytes × Execution,
    fetch Execution.codec ledger.executions entry.1 = .ok (some entry.2) ∧ entry.2.id = name

/-- No two slots of executions share a key. -/
def KeysApart (executions : List Execution) : Prop :=
  ∀ one ∈ executions, ∀ two ∈ executions, one.slot.key = two.slot.key → one.slot = two.slot

theorem keysApart_of_zeroFree (free : ∀ arrival ∈ arrivals, ZeroFree arrival.completion.resource) :
    KeysApart (ledger.toldAll arrivals) := by
  have plain {execution : Execution} (mem : execution ∈ ledger.toldAll arrivals) :
      ZeroFree execution.slot.resource := by
    obtain ⟨arrival, inside, same⟩ := mem_toldAll mem
    exact same ▸ free arrival inside
  exact fun one mem two mem' => (Slot.key_inj (plain mem) (plain mem')).1

theorem slot_eq_of_cuttable {other : Execution}
    (cuttable : ∀ one ∈ arrivals, ∀ two ∈ arrivals,
      one.completion.slot.Cuttable two.completion.slot)
    (mem : other ∈ ledger.toldAll arrivals) (mem' : execution ∈ ledger.toldAll arrivals)
    (same : other.id = execution.id) : other.slot = execution.slot := by
  obtain ⟨one, inside, own⟩ := mem_toldAll mem
  obtain ⟨two, inside', own'⟩ := mem_toldAll mem'
  rw [id_of_mem_toldAll mem, id_of_mem_toldAll mem', own, own'] at same
  rw [own, own']
  exact (cuttable one inside two inside').name_inj.1 same

theorem firstUnder_of_mem (mem : execution ∈ told) :
    ∃ first, firstUnder told execution.slot.key = some first := by
  rw [← Option.isSome_iff_exists, firstUnder, List.find?_isSome]
  exact ⟨execution, mem, decide_eq_true rfl⟩

/-- Where slots have keys of their own, every name stands for an execution, and for no other one if
no other slot has the name. -/
theorem KeepsFirst.namesOne_iff (keeps : KeepsFirst told ledger) (apart : KeysApart told)
    (named : ∀ execution ∈ told, execution.id = execution.slot.name) (mem : execution ∈ told) :
    ledger.NamesOne execution.id ↔
      ∀ other ∈ told, other.id = execution.id → other.slot = execution.slot := by
  have stored {other : Execution} (mem : other ∈ told) :
      ∃ first, Ledger.fetch Execution.codec ledger.executions other.slot.key = .ok (some first) ∧
        first.id = other.id := by
    obtain ⟨first, found⟩ := firstUnder_of_mem mem
    obtain ⟨inside, same⟩ := key_of_firstUnder found
    refine ⟨first, by rw [keeps.fetch, found], ?_⟩
    rw [named first inside, named other mem, apart first inside other mem same]
  constructor
  · rintro ⟨entry, _, only⟩ other mem' same
    obtain ⟨one, found, own⟩ := stored mem
    obtain ⟨two, found', own'⟩ := stored mem'
    have keys : other.slot.key = execution.slot.key :=
      congrArg Prod.fst ((only (other.slot.key, two) ⟨found', own'.trans same⟩).trans
        (only (execution.slot.key, one) ⟨found, own⟩).symm)
    exact apart other mem' execution mem keys
  · intro alone
    obtain ⟨one, found, own⟩ := stored mem
    refine ⟨(execution.slot.key, one), ⟨found, own⟩, ?_⟩
    rintro ⟨key, record⟩ ⟨found', own'⟩
    dsimp only at found' own'
    obtain ⟨inside, same⟩ :=
      key_of_firstUnder (Except.ok.inj ((keeps.fetch key).symm.trans found'))
    obtain rfl : execution.slot.key = key := by rw [← same, alone record inside own']
    rw [found] at found'
    cases found'
    rfl

/-- What the names of executions say after reports came in. -/
structure NamesExecutions (start : Ledger) (arrivals : List Arrival) : Prop where
  /-- Slots share a name if they have the same kind and their parts, joined with a hyphen, are the
  same text. -/
  shared : ∀ first second : Slot, first.name = second.name ↔ first.kind = second.kind ∧
    first.resource ++ "-" ++ first.job = second.resource ++ "-" ++ second.job
  /-- They share none if it is known where the names are cut. -/
  cut : ∀ first second : Slot, first.Cuttable second →
    (first.name = second.name ↔ first = second)
  /-- What is stored was told of, and is named after the slot whose key it stands under. -/
  stored : ∀ key execution,
    fetch Execution.codec (start.receiveAll arrivals).executions key = .ok (some execution) →
    execution ∈ start.toldAll arrivals ∧ execution.slot.key = key ∧
      execution.id = execution.slot.name
  /-- A latest record points to an execution of its key that was told of. -/
  latest : ∀ key latest, (start.receiveAll arrivals).latest? key = .ok (some latest) →
    ∃ execution ∈ start.toldAll arrivals, execution.key = key ∧
      latest.execution = execution.slot.name
  /-- A resource points to where it did at the start, or to an execution on it that was told of. -/
  pointers : ∀ id resource, (start.receiveAll arrivals).resource? id = .ok (some resource) →
    (∃ before, start.resource? id = .ok (some before) ∧
      resource.lastExecution = before.lastExecution) ∨
    ∃ execution ∈ start.toldAll arrivals, execution.resource = id ∧
      resource.lastExecution = some execution.slot.name
  /-- The name of what was told of stands for one stored execution just if no other slot that was
  told of has it, as long as these slots have keys of their own. -/
  one : KeysApart (start.toldAll arrivals) → ∀ execution ∈ start.toldAll arrivals,
    ((start.receiveAll arrivals).NamesOne execution.slot.name ↔
      ∀ other ∈ start.toldAll arrivals, other.slot.name = execution.slot.name →
        other.slot = execution.slot)
  /-- Without zero characters, and where it is known where the names are cut, every latest record
  points to one stored execution, and so does every resource that does not point to where it did at
  the start. -/
  sure : (∀ arrival ∈ arrivals, ZeroFree arrival.completion.resource) →
    (∀ one ∈ arrivals, ∀ two ∈ arrivals, one.completion.slot.Cuttable two.completion.slot) →
    (∀ key latest, (start.receiveAll arrivals).latest? key = .ok (some latest) →
      (start.receiveAll arrivals).NamesOne latest.execution) ∧
    ∀ id resource, (start.receiveAll arrivals).resource? id = .ok (some resource) →
      (∃ before, start.resource? id = .ok (some before) ∧
        resource.lastExecution = before.lastExecution) ∨
      ∃ name, resource.lastExecution = some name ∧ (start.receiveAll arrivals).NamesOne name

/-- From a ledger without executions and latest records on, whatever reports come in, latest records
and resources point to names of slots, which are those of single executions as long as no two slots
share a name or a key. -/
theorem namesExecutions_receiveAll (executions : start.executions = ∅) (latest : start.latest = ∅)
    (named : start.Named) (arrivals : List Arrival) : start.NamesExecutions arrivals := by
  have keeps := keepsFirst_receiveAll executions arrivals
  have points := (pointsToTold_start latest named).receiveAll arrivals
  rw [List.nil_append] at points
  have ids {execution : Execution} (mem : execution ∈ start.toldAll arrivals) :
      execution.id = execution.slot.name := id_of_mem_toldAll mem
  constructor
  · exact fun _ _ => Slot.name_eq_iff
  · exact fun _ _ => Slot.Cuttable.name_inj
  · intro key execution found
    rw [keeps.fetch] at found
    obtain ⟨mem, own⟩ := key_of_firstUnder (Except.ok.inj found)
    exact ⟨mem, own, ids mem⟩
  · intro key record found
    obtain ⟨execution, mem, own, pointer⟩ := points.latest key record found
    exact ⟨execution, mem, own, pointer.trans (ids mem)⟩
  · intro id resource found
    refine (points.resources id resource found).imp_right ?_
    rintro ⟨execution, mem, own, pointer⟩
    exact ⟨execution, mem, own, pointer.trans (congrArg some (ids mem))⟩
  · intro apart execution mem
    rw [← ids mem, keeps.namesOne_iff apart (fun _ => ids) mem]
    refine forall₂_congr fun other mem' => ?_
    rw [ids mem']
  · intro free cuttable
    have single {execution : Execution} (mem : execution ∈ start.toldAll arrivals) :
        (start.receiveAll arrivals).NamesOne execution.id :=
      (keeps.namesOne_iff (keysApart_of_zeroFree free) (fun _ => ids) mem).2
        fun other mem' same => slot_eq_of_cuttable cuttable mem' mem same
    constructor
    · intro key record found
      obtain ⟨execution, mem, _, pointer⟩ := points.latest key record found
      exact pointer ▸ single mem
    · intro id resource found
      refine (points.resources id resource found).imp_right ?_
      rintro ⟨execution, mem, _, pointer⟩
      exact ⟨execution.id, pointer, single mem⟩

theorem namesExecutions_page :
    pageLedger.executions = ∅ ∧ pageLedger.latest = ∅ ∧ pageLedger.Named ∧
      pageLedger.NamesExecutions pageArrivals :=
  ⟨rfl, rfl, pageLedger_named, namesExecutions_receiveAll rfl rfl pageLedger_named pageArrivals⟩

/-- A job whose name ends like that of another one. -/
def imageJob : Job := { pageJob false with id := "image-7" }

/-- A ledger that stores both jobs. -/
def imageJobs : Ledger := (empty.putJob imageJob).putJob (pageJob false)

/-- An image of the page is checked for one job. -/
def imageArrival : Arrival :=
  ⟨{ (PageEvent.report ⟨false, .checkLink, false⟩).completion with resource := "page-image" },
    .epoch⟩

/-- The page itself is checked for the other one. -/
def otherArrival : Arrival :=
  ⟨{ (PageEvent.report ⟨false, .checkLink, false⟩).completion with job := imageJob.id }, .epoch⟩

/-- Both of them. -/
def imageArrivals : List Arrival := [imageArrival, otherArrival]

/-- The execution on the image. -/
def imageExecution : Execution := .ofCompletion imageArrival.completion (pageJob false) true .epoch

/-- The execution on the page. -/
def otherExecution : Execution := .ofCompletion otherArrival.completion imageJob true .epoch

theorem job?_imageJobs : imageJobs.job? "7" = .ok (some (pageJob false)) ∧
    imageJobs.job? "image-7" = .ok (some imageJob) := by
  have last (id : String) : imageJobs.job? id =
      if id = "7" then .ok (some (pageJob false)) else (empty.putJob imageJob).job? id :=
    job?_putJob Limits.whole_unlimited id
  have first : (empty.putJob imageJob).job? "image-7" =
      if "image-7" = "image-7" then .ok (some imageJob) else empty.job? "image-7" :=
    job?_putJob Limits.whole_unlimited "image-7"
  exact ⟨(last "7").trans (if_pos rfl),
    (last "image-7").trans ((if_neg (by decide)).trans (first.trans (if_pos rfl)))⟩

theorem toldAll_image :
    imageJobs.toldAll imageArrivals = [imageExecution, otherExecution] := by
  have image : imageJobs.told? imageArrival = some imageExecution :=
    told?_eq_some_iff.2 ⟨pageJob false, none, job?_imageJobs.1, rfl, rfl⟩
  have other : (imageJobs.receive imageArrival).told? otherArrival =
      some otherExecution := by
    have named : imageJobs.Named := by rintro id resource ⟨⟩
    have job : (imageJobs.receive imageArrival).job? "image-7" = .ok (some imageJob) := by
      rw [job?, receive, jobs_record]
      exact job?_imageJobs.2
    have about : (imageJobs.receive imageArrival).resource? "page" = .ok none := by
      rw [receive]
      rcases resource?_record named imageArrival.completion imageArrival.now "page" with
        kept | ⟨own, _⟩
      · exact kept.trans (resource?_of_bare rfl _)
      · exact absurd own (by decide)
    exact told?_eq_some_iff.2 ⟨imageJob, none, job, about, rfl⟩
  rw [imageArrivals, toldAll, image, toldAll, other]
  rfl

/-- The executions of two slots are stored under one name. -/
theorem namesTwo_image :
    (∀ execution ∈ [imageExecution, otherExecution],
      execution.id = "page-image-7-CHECK_LINK" ∧
        fetch Execution.codec (imageJobs.receiveAll imageArrivals).executions
          execution.slot.key = .ok (some execution)) ∧
      imageExecution.slot ≠ otherExecution.slot ∧
      ¬ (imageJobs.receiveAll imageArrivals).NamesOne "page-image-7-CHECK_LINK" := by
  have keeps : KeepsFirst (imageJobs.toldAll imageArrivals) (imageJobs.receiveAll imageArrivals) :=
    keepsFirst_receiveAll rfl imageArrivals
  have apart : KeysApart (imageJobs.toldAll imageArrivals) := keysApart_of_zeroFree (by decide)
  have named : ∀ execution ∈ imageJobs.toldAll imageArrivals,
      execution.id = execution.slot.name := fun _ => id_of_mem_toldAll
  rw [toldAll_image] at keeps apart named
  have free : ∀ execution ∈ [imageExecution, otherExecution], ZeroFree execution.resource := by
    decide
  have differ : imageExecution.slot ≠ otherExecution.slot := by decide
  have stored : ∀ execution ∈ [imageExecution, otherExecution],
      execution.id = "page-image-7-CHECK_LINK" ∧
        firstFor execution.slot [imageExecution, otherExecution] = some execution := by
    simp only [List.forall_mem_cons]
    refine ⟨⟨by decide, ?_⟩, ⟨by decide, ?_⟩, fun _ => nofun⟩
    · simp [firstFor]
    · simp [firstFor, differ]
  refine ⟨fun execution mem => ⟨(stored execution mem).1, ?_⟩, differ, fun single => ?_⟩
  · rw [keeps.fetch, firstUnder_key free (free execution mem), (stored execution mem).2]
  · have image : imageExecution ∈ [imageExecution, otherExecution] := List.mem_cons_self
    have other : otherExecution ∈ [imageExecution, otherExecution] :=
      List.mem_cons_of_mem _ List.mem_cons_self
    rw [← (stored _ other).1, keeps.namesOne_iff apart named other] at single
    exact differ (single _ image ((stored _ image).1.trans (stored _ other).1.symm))

end Ledger

end MediaHarvest
