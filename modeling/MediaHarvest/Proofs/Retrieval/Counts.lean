import MediaHarvest.Proofs.Retrieval.Run

/-!
# What a node counts

Requests are counted one by one while a task is carried out.  Apart from them a node counts the end
of the retrieval, once, whether the retrieval comes to its end or is given up.
-/

namespace MediaHarvest

namespace Stage

variable {σ α β : Type}

/-- Nothing but requests is counted. -/
def Uncounted (stage : Stage σ α) : Prop :=
  ∀ session : Session σ, (stage session).1.metrics.unasked = session.metrics.unasked

theorem Quiet.uncounted {stage : Stage σ α} (quiet : stage.Quiet) : stage.Uncounted :=
  fun session => (quiet session).counters

theorem uncounted_edit (change : Outcome → Outcome) : (edit change : Stage σ Unit).Uncounted :=
  fun _ => rfl

theorem Uncounted.bind {first : Stage σ α} {next : α → Stage σ β} (uncounted : first.Uncounted)
    (others : ∀ value, (next value).Uncounted) : (first >>= next).Uncounted := by
  intro session
  have begun := uncounted session
  rcases bind_cases first next session with
    ⟨middle, value, ended, goesOn⟩ | ⟨middle, stop, ended, stops⟩
  · rw [ended] at begun
    rw [goesOn]
    exact (others value middle).trans begun
  · rw [ended] at begun
    rw [stops]
    exact begun

end Stage

namespace Terms

open Stage

variable {σ : Type}

theorem Asks.uncounted {terms : Terms} {method : Method} {stage : Stage σ Response}
    (asks : terms.Asks method stage) : stage.Uncounted :=
  fun session => (asks session).1.counters

theorem uncounted_check (terms : Terms) (url : Url) :
    (terms.check url : Stage σ (Option UInt64)).Uncounted := by
  apply ((asks_fetch terms .head url).timed .checking).uncounted.bind
  intro response
  apply (uncounted_edit _).bind
  intro _
  exact (quiet_pure response.declaredLength).uncounted

theorem uncounted_isUnchanged (terms : Terms) (url : Url) (previous : UInt64) :
    (terms.isUnchanged url previous : Stage σ Bool).Uncounted := by
  apply (uncounted_edit _).bind
  intro _
  apply (uncounted_check terms url).bind
  intro current
  split
  · apply (uncounted_edit _).bind
    intro _
    exact (quiet_pure true).uncounted
  · apply (uncounted_edit _).bind
    intro _
    exact (quiet_pure false).uncounted

variable [Sink σ]

theorem uncounted_beginDownload (terms : Terms) (url : Url) :
    (terms.beginDownload url : Stage σ Nat).Uncounted := by
  apply (uncounted_edit _).bind
  intro _
  unfold download
  apply ((asks_fetch terms .get url).timed .connect).uncounted.bind
  intro response
  apply (uncounted_edit _).bind
  intro _
  exact (quiet_takeResponse terms response).uncounted

omit [Sink σ] in
theorem uncounted_setDeadline (terms : Terms) : (terms.setDeadline : Stage σ Unit).Uncounted := by
  intro session
  rcases terms.setDeadline_cases session with set | ⟨broken, _⟩
  · rw [set]
  · rw [broken]

/-- Carrying out a task counts requests only. -/
theorem uncounted_execute (terms : Terms) (task : Task) :
    (terms.execute task : Stage σ Nat).Uncounted := by
  unfold execute
  split
  · exact (quiet_fail _).uncounted
  · next url _ =>
    apply (uncounted_setDeadline terms).bind
    intro _
    unfold carryOut
    split
    · apply (uncounted_edit _).bind
      intro _
      apply (uncounted_check terms url).bind
      intro _
      exact (quiet_pure 0).uncounted
    · next previous _ _ =>
      apply (uncounted_isUnchanged terms url previous).bind
      intro unchanged
      cases unchanged with
      | true => exact (quiet_pure 0).uncounted
      | false => exact uncounted_beginDownload terms url
    · exact uncounted_beginDownload terms url

end Terms

namespace Metrics

/-- One retrieval has ended between the first counters and the second ones. -/
def EndsOnce (metrics after : Metrics) : Prop :=
  ∃ state elapsed, after.unasked = (metrics.retrievalFinished state elapsed).unasked

/-- How many retrievals have ended. -/
def retrievals (metrics : Metrics) : UInt64 :=
  metrics.retrievalsCompleted + metrics.retrievalsFailed + metrics.retrievalsAborted

theorem retrievals_retrievalFinished (metrics : Metrics) (state : RetrievalState)
    (elapsed : Span) :
    (metrics.retrievalFinished state elapsed).retrievals = metrics.retrievals + 1 := by
  rw [retrievals, retrievals]
  cases state
  all_goals
    dsimp only [retrievalFinished]
    ac_rfl

/-- The counters that carrying out a task does not touch. -/
def unretrieved (metrics : Metrics) : Metrics :=
  { metrics with
    networkAttempts := 0
    retrievalsCompleted := 0
    retrievalsFailed := 0
    retrievalsAborted := 0
    retrievalMillis := 0 }

/-- The end of a retrieval is counted, and the other counters stay. -/
theorem EndsOnce.counted {metrics after : Metrics} (ends : metrics.EndsOnce after) :
    after.retrievals = metrics.retrievals + 1 ∧ after.unretrieved = metrics.unretrieved := by
  rcases ends with ⟨state, elapsed, same⟩
  constructor
  · exact (congrArg retrievals same).trans (retrievals_retrievalFinished metrics state elapsed)
  · apply (congrArg unretrieved same).trans
    cases state <;> rfl

end Metrics

namespace Session

variable {σ : Type}

theorem metrics_onSink (operation : σ → σ × Except SinkError Unit) (label : String)
    (session : Session σ) : (session.onSink operation label).metrics = session.metrics := by
  rw [onSink]
  rcases operation session.sink with ⟨sink, error | _⟩
  · rfl
  · rfl

/-- The end of a session that counted requests only is counted as its end. -/
theorem endsOnce_report {metrics : Metrics} {session : Session σ}
    (asked : session.metrics.unasked = metrics.unasked) (elapsed : Span) :
    metrics.EndsOnce (session.report elapsed).metrics := by
  have unasked (metrics : Metrics) (state : RetrievalState) :
      (metrics.retrievalFinished state elapsed).unasked =
        metrics.unasked.retrievalFinished state elapsed := by
    cases state <;> rfl
  refine ⟨session.outcome.state, elapsed, ?_⟩
  rw [report, unasked, unasked, asked]

variable [Sink σ]

theorem metrics_discard (failure : Failure) (session : Session σ) :
    (session.discard failure).metrics = session.metrics :=
  (metrics_onSink Sink.finish "failed to close sink" _).trans
    (metrics_onSink Sink.truncate "failed to discard partial body" session)

theorem metrics_conclude (bytes : Nat) (session : Session σ) :
    (session.conclude bytes).metrics = session.metrics := by
  rw [conclude]
  rcases Sink.finish session.sink with ⟨sink, error | _⟩
  · exact metrics_discard (.sink error.message) { session with sink := sink }
  · rfl

/-- A retrieval counts its end, unless it halts before. -/
theorem endsOnce_retrieve (terms : Terms) (task : Task) (session : Session σ) :
    (∃ after, session.retrieve terms task = (after, none) ∧
      session.metrics.EndsOnce after.metrics) ∨
    ∃ after halt, session.retrieve terms task = (after, some halt) ∧
      after.metrics.unasked = session.metrics.unasked := by
  have asked := Terms.uncounted_execute terms task session
  rw [retrieve]
  generalize terms.execute task session = executed at asked ⊢
  rcases executed with ⟨after, (failure | halt) | bytes⟩
  · left
    refine ⟨_, rfl, endsOnce_report ?_ _⟩
    rw [metrics_discard]
    exact asked
  · exact .inr ⟨after, halt, rfl, asked⟩
  · left
    refine ⟨_, rfl, endsOnce_report ?_ _⟩
    rw [metrics_conclude]
    exact asked

end Session

namespace NodeSetup

open Session

/-- A node counts the end of a retrieval once, also when it is interrupted. -/
theorem endsOnce_runInto (setup : NodeSetup) (task : Task) {session : Session AnySink}
    (stands : Terms.At session [.pending]) (bare : session.outcome.headers = ∅)
    {after : Session AnySink} {states : SubTaskStates}
    (made : setup.runInto task session = (after, .ok states)) :
    session.metrics.EndsOnce after.metrics := by
  rw [runInto] at made
  rcases endsOnce_retrieve (setup.terms task) task session with
    ⟨ended, came, counted⟩ | ⟨ended, halt, came, asked⟩
  · rw [came] at made
    dsimp only at made
    split at made
    · have still : (setup.process task ended).1.metrics = ended.metrics := by
        rw [process]
        split
        · rfl
        · split
          · rfl
          · rfl
      rw [made] at still
      rw [still]
      exact counted
    · cases made
      exact counted
  · rcases retrieve_cases (setup.terms task) task stands bare with
      ⟨_, other, _⟩ | ⟨_, _, other, going, _⟩
    · rw [came] at other
      cases other
    · rw [came] at other made
      cases other
      cases halt with
      | interrupted =>
          cases made
          rw [abandon, going, if_neg Bool.false_ne_true]
          apply endsOnce_report
          rw [metrics_discard]
          exact asked
      | stuck => cases made
      | panicked => cases made

/-- Carrying out a task whose sink opens counts the end of one retrieval when the report is made. -/
theorem endsOnce_run {setup : NodeSetup} {task : Task} {trace after : NodeTrace} {now : Instant}
    {report : Completion} (made : setup.run task trace now = (after, .ok report))
    {files : FileTree} {sink : AnySink}
    (opens : AnySink.create setup.sinkKind trace.files setup.folder (StoragePath.ofTask task) =
      (files, .ok sink)) :
    trace.metrics.EndsOnce after.metrics := by
  rcases run_cases made with
    ⟨_, error, refused, _, _⟩ | ⟨_, other, session, states, _, ran, rfl, _⟩
  · rw [opens] at refused
    cases refused
  · have stands : Terms.At (Session.start other trace.requests trace.metrics) [.pending] :=
      ⟨rfl, rfl⟩
    exact endsOnce_runInto setup task stands rfl ran

/-- Whatever becomes of a task, the report on it is for the task. -/
theorem report_run {setup : NodeSetup} {task : Task} {trace after : NodeTrace} {now : Instant}
    {report : Completion} (made : setup.run task trace now = (after, .ok report)) :
    ∃ outcome subTasks, report = setup.report task outcome subTasks now := by
  rcases run_cases made with ⟨_, error, _, _, rfl⟩ | ⟨_, _, session, states, _, _, _, rfl⟩
  · exact ⟨_, _, rfl⟩
  · exact ⟨_, _, rfl⟩

end NodeSetup

end MediaHarvest
