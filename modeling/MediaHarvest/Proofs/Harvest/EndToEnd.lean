import MediaHarvest.Proofs.Harvest.Assignments
import MediaHarvest.Proofs.Harvest.InTurn
import MediaHarvest.Proofs.Retrieval.Redirects
import MediaHarvest.Proofs.Retrieval.Unhurried

/-!
# Harvests from end to end

Whatever the order in which the parts of a harvest have their turns, whatever the network answers
and whatever earlier harvests left behind, a harvest of a jobs file comes to its end, and then every
job of the file is finished and every task was counted once at each of its stages.
-/

namespace MediaHarvest

variable {machine : Machine} {settings : Settings} {network : Network} {clock : Instant → Prop}
  {jobs : JobsFile} {newName : Nat → String} {held : Holdings} {now : Instant}

/-- What a fleet comes to, whatever turns were taken before. -/
structure Fleet.Prospers (settings : Settings) (network : Network) (clock : Instant → Prop)
    (newName : Nat → String) (jobs : JobsFile) (fleet : Fleet) : Prop where
  /-- There is an end to turns. -/
  descends : ∀ after, Step settings network clock fleet after → after.todo < fleet.todo
  /-- Unless nothing is left to do, some part neither waits for room nor fails. -/
  proceeds : fleet.Done ∨ ∃ move, fleet.Allows settings move ∧
    ∀ time, clock time → ∃ after, fleet.perform settings network time move = some after
  /-- Every job that is waited for can be looked up. -/
  known : ∀ id ∈ fleet.harvest.pending, ∃ job, fleet.harvest.hub.ledger.job? id = .ok (some job)
  /-- When nothing is left to do, all is accomplished, whichever jobs are looked at once more. -/
  ends : fleet.Done → ∀ left ⊆ fleet.harvest.pending, ∀ time, ∃ summary,
    (fleet.harvest.lookAgain left time).summary = .ok summary ∧
      summary.Accomplished newName jobs ∧ (fleet.harvest.lookAgain left time).holdings.Usable

/-- What comes of the harvest of a jobs file. -/
structure Harvest.Accomplishes (machine : Machine) (settings : Settings) (network : Network)
    (clock : Instant → Prop) (newName : Nat → String) (jobs : JobsFile) (held : Holdings)
    (now : Instant) : Prop where
  /-- It starts, and prospers in whatever order the parts have their turns. -/
  prospers : ∃ harvest, (start machine settings held now).2 = .ok harvest ∧
    ∀ fleet, Fleet.Reaches settings network clock (harvest.launch jobs newName) fleet →
      fleet.Prospers settings network clock newName jobs
  /-- One part after the other, it gives a summary of what was accomplished. -/
  inTurn : ∃ ended summary requests,
    run machine settings network jobs newName held now = (ended, .ok (summary, requests)) ∧
      summary.Accomplished newName jobs ∧ ended.Usable

/-- A fleet that is under way prospers. -/
theorem Fleet.Underway.prospers {fleet : Fleet} (underway : fleet.Underway (jobs.listed newName))
    (listing : Job.Listing (jobs.listed newName)) (room : settings.HasRoom machine)
    (plain : ∀ time, clock time → time.Plain) (works : fleet.Works settings network clock) :
    fleet.Prospers settings network clock newName jobs := by
  rcases underway with ⟨added, journal, going⟩
  constructor
  · intro after step
    exact (Underway.step ⟨added, journal, going⟩ listing works plain step).1
  · rcases done_or_ready room fleet with done | ⟨move, allows, ready⟩
    · exact .inl done
    · right
      refine ⟨move, allows, ?_⟩
      intro time shown
      rcases going.perform listing works shown (plain time shown) ready with ⟨after, done, _⟩
      exact ⟨after, done⟩
  · intro id mem
    rcases going.plans.pending id mem with ⟨job, there, rfl, _⟩
    rcases (going.serves.served job there).stored with ⟨last, found, _⟩
    exact ⟨last, found⟩
  · intro done left known time
    exact going.accomplished done known time

/-- Every harvest of a jobs file whose jobs have different names accomplishes all of them, if there
is room for something everywhere, its requests and its holdings can be used, the retention stays
within the calendar, and the tasks can be carried out. -/
theorem Harvest.accomplishes {bytes : Bytes} (read : JobsFile.ofBytes bytes = .ok jobs)
    (distinct : (jobs.names newName).Nodup) (room : settings.HasRoom machine)
    (agent : settings.worker.policy.isUsable = true) (usable : held.Usable)
    (retention : (now.daysBefore? settings.retention.days.toNat).isSome = true)
    (shown : clock now) (plain : ∀ time, clock time → time.Plain)
    (works : ∀ harvest, (start machine settings held now).2 = .ok harvest →
      ∀ fleet, Fleet.Reaches settings network clock (harvest.launch jobs newName) fleet →
        fleet.Works settings network clock) :
    Accomplishes machine settings network clock newName jobs held now := by
  have listing := JobsFile.listing_listed read distinct
  rcases start_of_usable room usable now agent retention with ⟨harvest, started, fresh, _⟩
  have works := works harvest started
  have underway := fresh.underway room.nodes jobs newName
  have prospers (fleet : Fleet)
      (reaches : Fleet.Reaches settings network clock (harvest.launch jobs newName) fleet) :
      fleet.Prospers settings network clock newName jobs :=
    (underway.reaches listing works plain reaches).prospers listing room plain (works fleet reaches)
  constructor
  · exact ⟨harvest, started, prospers⟩
  · rcases reaches_run shown plain listing underway works with
      ⟨added, adds, ended, reaches, worked, done⟩
    have known : (ended.harvest.pending.filter fun job =>
        !ended.harvest.hub.announced.contains job) ⊆ ended.harvest.pending :=
      List.filter_subset_self _
    rcases (prospers ended reaches).ends done _ known now with ⟨summary, gives, accomplished, left⟩
    have again : ended.harvest.lookAgain (ended.harvest.pending.filter fun job =>
        !ended.harvest.hub.announced.contains job) now = ended.harvest.reconcileOpen now := rfl
    rw [again] at gives left
    refine ⟨_, summary, (ended.harvest.reconcileOpen now).requests, ?_, accomplished, left⟩
    rcases begun : start machine settings held now with ⟨before, answer⟩
    rw [begun] at started
    dsimp only at started
    subst started
    rw [run, begun]
    dsimp only
    rw [adds]
    dsimp only
    rw [worked]
    dsimp only
    rw [gives]
    rfl

/-! ## A gallery -/

/-- Nothing was left behind. -/
def Holdings.empty : Holdings := ⟨.empty, .empty, .empty⟩

theorem Holdings.usable_empty : empty.Usable where
  filed := Ledger.filed_empty
  readable := Ledger.readable_of_bare rfl rfl rfl
  reopens := ⟨_, rfl⟩

/-- One node, which keeps contents in memory. -/
def gallerySettings : Settings :=
  { Settings.standard with
    worker := { WorkerSettings.standard with nodes := 1, sinkKind := .memory } }

/-- A job with a picture and with a resource that the file does not list, and a job without
tasks. -/
def galleryText : String :=
  "\x7b\"resources\":[\x7b\"id\":\"picture\",\"url\":\"http://192.0.2.1/\",\"owner\":" ++
    "[\"\",\"\",\"\",\"\"]\x7d]," ++
    "\"jobs\":[\x7b\"id\":\"7\",\"url_source_type\":\"OBJECT\",\"limits\":\x7b\"max_redirects\":5\x7d," ++
    "\"tasks\":[\x7b\"task_type\":\"UNCONDITIONAL_DOWNLOAD\",\"resource_id\":\"picture\"\x7d," ++
    "\x7b\"task_type\":\"CHECK_LINK\",\"resource_id\":\"stray\"\x7d]\x7d," ++
    "\x7b\"id\":\"8\",\"url_source_type\":\"OBJECT\",\"tasks\":[]\x7d]\x7d"

def galleryLimits : Limits := { Limits.unlimited with redirects := 5 }

def galleryJobs : JobsFile where
  resources := [⟨"picture", some "http://192.0.2.1/", ⟨"", "", "", ""⟩, true, none, []⟩]
  jobs :=
    [⟨some "7", ⟨"", "", "", ""⟩, .object, galleryLimits,
        [⟨.unconditionalDownload, "picture", []⟩, ⟨.checkLink, "stray", []⟩]⟩,
      ⟨some "8", ⟨"", "", "", ""⟩, .object, .unlimited, []⟩]

theorem galleryJobs_read : JobsFile.ofBytes (Text.utf8 galleryText) = .ok galleryJobs := by
  have read : (JobsFile.ofBytes (Text.utf8 galleryText)).toOption = some galleryJobs := by
    decide +kernel
  cases given : JobsFile.ofBytes (Text.utf8 galleryText) with
  | error error =>
      rw [given] at read
      cases read
  | ok jobs =>
      rw [given] at read
      exact congrArg Except.ok (Option.some.inj read)

/-- The picture is answered with its bytes. -/
def pictureResponse : Response :=
  ⟨200, [], none, ⟨[⟨.ofMillis 5, [1, 2, 3]⟩], .complete .zero⟩⟩

/-- Everything else is answered with a redirect to the picture. -/
def pictureRedirect : Response :=
  ⟨302, [("location", Text.utf8 "/picture")], none, ⟨[], .complete .zero⟩⟩

def galleryNetwork : Network where
  lookup _ := .answered .zero (.error "no such host")
  exchange _ request :=
    if request.url.path = .rooted ["picture"] then .answered (.ofMillis 1) pictureResponse
    else .answered .zero pictureRedirect
  domains := .common
  uptime := .zero

/-- What both tasks of the file have to keep to. -/
def galleryTerms : Terms := ⟨galleryNetwork, gallerySettings.worker.policy, galleryLimits, none⟩

theorem letEnd_gallery : galleryTerms.LetEnd where
  toEndWaits := by
    refine Terms.endWaits_of_answers (fun _ => Lookup.noConfusion) fun _ request => ?_
    by_cases found : request.url.path = .rooted ["picture"]
    · exact ⟨_, _, _, if_pos found, rfl⟩
    · exact ⟨_, _, _, if_neg found, rfl⟩
  redirects := by decide
  deadline := by rintro _ ⟨⟩

theorem unhurried_gallery : galleryTerms.Unhurried := ⟨rfl, rfl, rfl⟩

/-- A task on the picture. -/
def galleryTask (previousHeaders : Headers) (owner : Owner) : Task where
  id := "7:0"
  job := "7"
  resource := "picture"
  url := some "http://192.0.2.1/"
  kind := .unconditionalDownload
  limits := galleryLimits
  previousHeaders := previousHeaders
  subTasks := []
  owner := owner

/-- A task on the resource that is not listed. -/
def strayTask (previousHeaders : Headers) (owner : Owner) : Task where
  id := "7:1"
  job := "7"
  resource := "stray"
  url := none
  kind := .checkLink
  limits := galleryLimits
  previousHeaders := previousHeaders
  subTasks := []
  owner := owner

/-! ### The picture -/

namespace Session

open Stage Terms

/-- The link of the task, and that of the picture. -/
def galleryUrl : Url :=
  ⟨"http", "", "", some (.address (.v4 192 0 2 1)), none, .rooted [""], none, none⟩

def pictureUrl : Url := { galleryUrl with path := .rooted ["picture"] }

/-- The session after the picture was found. -/
def foundPicture (session : Session AnySink) : Session AnySink :=
  { session.later (.ofMillis 1) with
    outcome := { session.outcome with
      httpStatus := some 200
      sourceAddress := some (.v4 192 0 2 1)
      redirectionPath := session.outcome.redirectionPath ++ ["http://192.0.2.1/picture"] }
    requests := session.requests ++ [⟨.get, galleryUrl, galleryTerms.policy.agent⟩] ++
      [⟨.get, pictureUrl, galleryTerms.policy.agent⟩]
    metrics := session.metrics.networkAttempt.networkAttempt }

theorem fetch_gallery (session : Session AnySink) :
    galleryTerms.fetch .get galleryUrl session = (session.foundPicture, .ok pictureResponse) := by
  let near := (galleryTerms.send .get galleryUrl session).1.redirected pictureUrl
  have sent : galleryTerms.send .get galleryUrl session =
      ((galleryTerms.send .get galleryUrl session).1, .ok pictureRedirect) := rfl
  have hop : galleryTerms.Trail .get galleryUrl session [pictureUrl] pictureUrl near :=
    .hop sent (by decide +kernel) (.here pictureUrl near)
  have came : galleryTerms.send .get pictureUrl near =
      ((galleryTerms.send .get pictureUrl near).1, .ok pictureResponse) := rfl
  have fetched := Terms.fetch_eq_iff.2 ⟨[pictureUrl], pictureUrl, near, hop, by decide,
    .accepted came (by decide +kernel) (by decide)⟩
  have text : pictureUrl.text = "http://192.0.2.1/picture" := by decide +kernel
  rw [fetched, foundPicture, ← text]
  rfl

/-- The session after the picture was taken into memory. -/
def tookPicture (files : FileTree) (session : Session AnySink) : Session AnySink :=
  { session.later (.ofMillis 5) with sink := .memory files ⟨[1, 2, 3], false⟩ }

theorem takeBody_gallery {files : FileTree} {session : Session AnySink}
    (fresh : session.sink = .memory files .new) :
    galleryTerms.takeBody session.elapsed pictureResponse.body.ending pictureResponse.body.chunks 0
      session = (session.tookPicture files, .ok 3) := by
  have stored : store [1, 2, 3] (session.later (.ofMillis 5)) =
      (session.tookPicture files, .ok ()) := by
    rw [store, Session.later, fresh]
    rfl
  have taken : galleryTerms.takePiece session.elapsed 0 ⟨.ofMillis 5, [1, 2, 3]⟩ session =
      (session.tookPicture files, .ok 3) :=
    (takePiece_of_unhurried unhurried_gallery ..).trans (bind_of_ok stored _)
  have ended : galleryTerms.awaitPiece session.elapsed 3 .zero (session.tookPicture files) =
      (session.tookPicture files, .ok ()) :=
    awaitPiece_of_unhurried unhurried_gallery ..
  exact (bind_of_ok taken _).trans (bind_of_ok ended _)

end Session

/-- What is reported on the picture. -/
def galleryReport : Completion where
  job := "7"
  task := "7:0"
  resource := "picture"
  kind := .unconditionalDownload
  verdict := .success
  subTasks := .retrieved
  outcome :=
    { Outcome.start .memory with
      state := .completed
      history := [.pending, .downloading, .completed]
      bytesTransferred := 3
      httpStatus := some 200
      sourceAddress := some (.v4 192 0 2 1)
      times := ⟨.ofMillis 1, .zero, .ofMillis 5⟩
      redirectionPath := ["http://192.0.2.1/picture"] }
  node := "node-0"
  completedAt := .epoch

/-- What is reported on the other task. -/
def strayReport : Completion where
  job := "7"
  task := "7:1"
  resource := "stray"
  kind := .checkLink
  verdict := .error
  subTasks := .failed []
  outcome := .failed .memory (.malformedInput "missing url")
  node := "node-0"
  completedAt := .epoch

namespace NodeSetup

open Stage Session

/-- The node of the gallery. -/
def gallery : NodeSetup := Harvest.nodeSetup gallerySettings galleryNetwork "node-0"

variable (trace : NodeTrace) (headers : Headers) (owner : Owner)

/-- Whatever was done before, the picture is reported on as it is. -/
theorem report_picture :
    (gallery.run (galleryTask headers owner) trace .epoch).2 = .ok galleryReport := by
  let session := start (AnySink.memory trace.files .new) trace.requests trace.metrics
  let began := Terms.moved .downloading session
  let found : Session AnySink :=
    { began.foundPicture with
      outcome := { began.foundPicture.outcome with times := ⟨.ofMillis 1, .zero, .zero⟩ } }
  let filled : Session AnySink :=
    { found.tookPicture trace.files with
      outcome := { found.outcome with times := ⟨.ofMillis 1, .zero, .ofMillis 5⟩ } }
  have link : (galleryTask headers owner).link galleryTerms.network.domains = .ok galleryUrl := by
    have known : (galleryTask ∅ ⟨"", "", "", ""⟩).link .common = .ok galleryUrl := by
      decide +kernel
    exact known
  have fetched : timed .connect (galleryTerms.fetch .get galleryUrl) began =
      (found, .ok pictureResponse) :=
    timed_of_took (fetch_gallery began) rfl .connect
  have taken : timed .retrieval (galleryTerms.takeBody found.elapsed pictureResponse.body.ending
      pictureResponse.body.chunks 0) found = (filled, .ok 3) :=
    timed_of_took (takeBody_gallery rfl) rfl .retrieval
  have executed : (gallery.terms (galleryTask headers owner)).execute (galleryTask headers owner)
      session = (filled, .ok 3) := by
    change galleryTerms.execute (galleryTask headers owner) session = (filled, .ok 3)
    rw [Terms.execute, link]
    dsimp only
    rw [bind_of_ok (Terms.setDeadline_of_unhurried unhurried_gallery session)]
    apply (bind_of_ok (Terms.edit_advance .downloading session) _).trans
    exact (bind_of_ok fetched _).trans taken
  have ran : gallery.runInto (galleryTask headers owner) session =
      ((filled.conclude 3).report (filled.conclude 3).elapsed, .ok .retrieved) := by
    rw [runInto, retrieve, executed]
    rfl
  have opened : AnySink.create gallery.sinkKind trace.files gallery.folder
      (StoragePath.ofTask (galleryTask headers owner)) =
      (trace.files, .ok (.memory trace.files .new)) := rfl
  rw [run]
  dsimp only
  rw [opened]
  dsimp only
  rw [ran]
  rfl

/-- The other task ends for want of a link. -/
theorem report_stray :
    (gallery.run (strayTask headers owner) trace .epoch).2 = .ok strayReport := rfl

end NodeSetup

/-! ### The harvest -/

/-- A task that a job with limits of its own plans for a known link. -/
theorem Task.Follows.eq {ledger : Ledger} {job : Job} {index : Nat} {planned : PlannedTask}
    {task : Task} (follows : task.Follows ledger job index planned)
    (limited : job.limits ≠ .unlimited) {url : Option String}
    (link : ledger.link? planned.resource = .ok url) :
    task = ⟨job.taskId index, job.id, planned.resource, url, planned.kind, job.limits,
      task.previousHeaders, planned.subTasks, task.owner⟩ := by
  have known : url = task.url := Except.ok.inj (link.symm.trans follows.link)
  rw [known, ← follows.id, ← follows.job, ← follows.resource, ← follows.kind,
    ← follows.subTasks, ← follows.limits limited]

/-- The file plans nothing but the two tasks. -/
theorem eq_galleryTask {ledger : Ledger}
    (listed : ledger.link? "picture" = .ok (some "http://192.0.2.1/"))
    (missing : ledger.link? "stray" = .ok none) {task : Task}
    (planned : task.Planned (galleryJobs.listed newName) ledger) :
    task = galleryTask task.previousHeaders task.owner ∨
      task = strayTask task.previousHeaders task.owner := by
  rcases planned with ⟨job, mem, index, planned, follows⟩
  have there := follows.there
  have limited : galleryLimits ≠ .unlimited := by decide
  rcases List.mem_pair.1 mem with rfl | rfl
  · rcases index with _ | _ | index
    · cases there
      exact .inl (follows.eq limited listed)
    · cases there
      exact .inr (follows.eq limited missing)
    · cases there
  · cases there

/-- Every task that the node may take can be carried out. -/
theorem gallery_works {ledger : Ledger}
    (listed : ledger.link? "picture" = .ok (some "http://192.0.2.1/"))
    (missing : ledger.link? "stray" = .ok none) {fleet : Fleet}
    (assigned : fleet.Assigned (galleryJobs.listed newName) ledger ["node-0"]) :
    fleet.Works gallerySettings galleryNetwork fun time => time = .epoch := by
  have cases : ∀ taken ∈ fleet.running, ∃ headers owner,
      taken = ("node-0", galleryTask headers owner) ∨
        taken = ("node-0", strayTask headers owner) := by
    rintro ⟨node, task⟩ mem
    rcases assigned.running _ mem with ⟨named, planned⟩
    cases List.mem_singleton.1 named
    refine ⟨task.previousHeaders, task.owner, ?_⟩
    rcases eq_galleryTask listed missing planned with picture | stray
    · exact .inl (congrArg (Prod.mk "node-0") picture)
    · exact .inr (congrArg (Prod.mk "node-0") stray)
  constructor
  · exact fun _ _ => ⟨_, _, rfl⟩
  · intro taken mem
    rcases cases taken mem with ⟨headers, owner, rfl | rfl⟩
    · exact letEnd_gallery
    · exact letEnd_gallery
  · rintro taken mem _ rfl harvest report carried
    rcases Harvest.of_carryOut carried with ⟨trace, made, _⟩
    rcases cases taken mem with ⟨headers, owner, rfl | rfl⟩
    · have known := NodeSetup.report_picture
        ⟨fleet.harvest.files, fleet.harvest.requests, fleet.harvest.hub.metrics⟩ headers owner
      rw [NodeSetup.gallery, made] at known
      cases known
      decide +kernel
    · have known := NodeSetup.report_stray
        ⟨fleet.harvest.files, fleet.harvest.requests, fleet.harvest.hub.metrics⟩ headers owner
      rw [NodeSetup.gallery, made] at known
      cases known
      decide +kernel

theorem gallery_hasRoom : gallerySettings.HasRoom .usual where
  nodes := by decide
  poolSize := by decide
  channelSize := by decide
  eventChannelSize := by decide
  statisticsInboxSize := by decide
  maxConcurrentEvents := by decide
  counted := by
    simp only [List.forall_mem_cons]
    exact ⟨by decide, by decide, by decide, by decide, by decide, nofun⟩
  listsNodes := by decide
  keepsRing := by decide

/-- Both jobs are accomplished: a picture behind a redirect was downloaded, and a task without a link
failed. -/
theorem accomplishes_gallery :
    Harvest.Accomplishes .usual gallerySettings galleryNetwork (fun time => time = .epoch)
      (fun _ => "") galleryJobs .empty .epoch := by
  have usable := Holdings.usable_empty
  have plain : ∀ time, time = Instant.epoch → time.Plain := by
    rintro _ rfl
    exact (by decide : Instant.epoch.nanos < 1000000000)
  apply Harvest.accomplishes galleryJobs_read
  · decide
  · exact gallery_hasRoom
  · decide +kernel
  · exact usable
  · decide +kernel
  · rfl
  · exact plain
  · intro harvest started fleet reaches
    rcases Harvest.start_of_usable gallery_hasRoom usable .epoch (by decide +kernel)
      (by decide +kernel) with ⟨_, same, fresh, bare⟩
    rw [started] at same
    cases same
    have unstored : harvest.hub.ledger.resources = ∅ := bare
    let ledger := (harvest.addResources galleryJobs.resources).hub.ledger
    have found (id : String) : ledger.resource? id =
        if id = "picture" then .ok galleryJobs.resources.head? else .ok none :=
      (Ledger.resource?_putResource ..).trans
        (congrArg (ite _ _) (Ledger.resource?_of_bare unstored id))
    have listed : ledger.link? "picture" = .ok (some "http://192.0.2.1/") := by
      rw [Ledger.link?, found, if_pos rfl]
      rfl
    have missing : ledger.link? "stray" = .ok none := by
      rw [Ledger.link?, found, if_neg (by decide)]
      rfl
    have named : ledger.Named := by
      have bare : harvest.hub.ledger.Named := by
        intro id resource found
        rw [Ledger.resource?_of_bare unstored] at found
        cases found
      exact bare.putResource _
    have listing : Job.Listing (galleryJobs.listed fun _ => "") :=
      JobsFile.listing_listed galleryJobs_read (by decide)
    exact (fresh.assigned galleryJobs (fun _ => "") named).works
      (fresh.underway (by decide) galleryJobs fun _ => "") listing plain
      (fun middle assigned => gallery_works listed missing assigned) reaches

/-- The same node under a name that breaks the line of a header. -/
def brokenSettings : Settings :=
  { gallerySettings with worker := { gallerySettings.worker with agent := "a\nb" } }

/-- The same node, and more reports at once than permits can be counted. -/
def crowdedSettings : Settings :=
  { gallerySettings with
    master := { gallerySettings.master with maxConcurrentEvents := 4611686018427387904 } }

/-- All else is there, but neither of these harvests takes place. -/
theorem refused_gallery :
    JobsFile.ofBytes (Text.utf8 galleryText) = .ok galleryJobs ∧
      (galleryJobs.names fun _ => "").Nodup ∧ Holdings.empty.Usable ∧ galleryTerms.LetEnd ∧
      (∀ settings ∈ [brokenSettings, crowdedSettings],
        (∀ size ∈ [settings.worker.nodes, settings.worker.poolSize, settings.worker.channelSize,
          settings.master.eventChannelSize, settings.master.statisticsInboxSize,
          settings.master.maxConcurrentEvents], 0 < size) ∧
        (Instant.epoch.daysBefore? settings.retention.days.toNat).isSome = true ∧
        (∀ files path, ∃ sink, AnySink.create settings.worker.sinkKind files
          settings.worker.folder path = (files, .ok sink))) ∧
      (Harvest.run .usual brokenSettings galleryNetwork galleryJobs (fun _ => "") .empty .epoch).2 =
        .error .unusableAgent ∧
      (Harvest.run .usual crowdedSettings galleryNetwork galleryJobs (fun _ => "") .empty .epoch).2 =
        .error (.halted .panicked) := by
  refine ⟨galleryJobs_read, by decide, Holdings.usable_empty, letEnd_gallery, ?_, ?_, ?_⟩
  · intro settings mem
    -- deciding this for every member would go through all words
    simp only [List.forall_mem_cons]
    rcases List.mem_pair.1 mem with rfl | rfl
    · exact ⟨⟨by decide, by decide, by decide, by decide, by decide, by decide, nofun⟩,
        by decide +kernel, fun files path => ⟨_, rfl⟩⟩
    · exact ⟨⟨by decide, by decide, by decide, by decide, by decide, by decide, nofun⟩,
        by decide +kernel, fun files path => ⟨_, rfl⟩⟩
  · decide +kernel
  · decide +kernel

end MediaHarvest
