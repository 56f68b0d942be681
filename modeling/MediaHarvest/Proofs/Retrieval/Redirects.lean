import Mathlib.Control.Monad.Basic
import MediaHarvest.Proofs.Retrieval.Returning
import MediaHarvest.Proofs.Retrieval.Trails

/-!
# Redirects

Since every redirect that is followed is counted, a fetch ends after one request more than the budget
at most, whatever the origin answers.  What it leaves on the path are the targets to which the answers
led; with the budget used up, one more redirect is a failure, and ends the retrieval.  But the counter
has 32 bits, and the greatest of all budgets uses up all that it can count: then one more redirect
breaks the retrieval down.
-/

namespace MediaHarvest

variable {σ : Type}

namespace Terms

open Stage

variable {terms : Terms} {method : Method} {url target last : Url} {targets : List Url}
  {session middle before after : Session σ} {response : Response} {stop : Stop}

/-! ## What a fetch leaves behind -/

theorem marks_of_answered (sent : terms.send method url session = (after, .ok response)) :
    after.marks = session.marks.went [terms.request method url] [] ∧
      ∃ delay, terms.network.exchange session.requests (terms.request method url) =
        .answered delay response := by
  have sends := sends_send terms method url session
  rw [sent] at sends
  cases sends with
  | answered marks told => exact ⟨marks, _, told⟩

/-- A trail ends at the last of its links, with a request for each of the others. -/
theorem Trail.marks (trail : terms.Trail method url session targets last before) :
    last = (url :: targets).getLast (List.cons_ne_nil _ _) ∧
      before.marks = session.marks.went ((url :: targets).dropLast.map (terms.request method))
        targets := by
  induction trail with
  | here url session => exact ⟨rfl, (Session.Marks.went_nil _).symm⟩
  | @hop url target last session middle before targets response sent redirect rest ih =>
      obtain ⟨ends, reached⟩ := ih
      refine ⟨ends, ?_⟩
      calc before.marks
          = (middle.redirected target).marks.went
              ((target :: targets).dropLast.map (terms.request method)) targets := reached
        _ = (session.marks.went [terms.request method url] [target]).went
              ((target :: targets).dropLast.map (terms.request method)) targets := by
            rw [Session.marks_redirected, (marks_of_answered sent).1,
              Session.Marks.went_went [_] [] [] [target]]
            rfl
        _ = session.marks.went ((url :: target :: targets).dropLast.map (terms.request method))
              (target :: targets) := Session.Marks.went_went _ _ _ _ _

theorem Trail.leads (trail : terms.Trail method url session targets last before) :
    terms.network.Leads (terms.request method) session.requests url targets := by
  induction trail with
  | here url session => exact .here _ _
  | @hop url target last session middle before targets response sent redirect rest ih =>
      obtain ⟨marks, delay, told⟩ := marks_of_answered sent
      have requests : middle.requests = session.requests ++ [terms.request method url] :=
        congrArg Session.Marks.requests marks
      refine .hop told redirect ?_
      rw [← requests]
      exact ih

/-- The links of a trail, up to its last one. -/
theorem map_dropLast_append (request : Url → Request) (url : Url) (targets : List Url) :
    (url :: targets).dropLast.map request ++
        [request ((url :: targets).getLast (List.cons_ne_nil _ _))] =
      (url :: targets).map request := by
  rw [← List.map_singleton, ← List.map_append, List.dropLast_concat_getLast]

/-- After a trail and one more response there was a request for each link. -/
theorem Trail.marks_of_answered (trail : terms.Trail method url session targets last before)
    (sent : terms.send method last before = (after, .ok response)) :
    after.marks = session.marks.went ((url :: targets).map (terms.request method)) targets := by
  obtain ⟨rfl, marks⟩ := trail.marks
  rw [(Terms.marks_of_answered sent).1, marks, Session.Marks.went_went, map_dropLast_append,
    List.append_nil]

/-- At its end a fetch sends one request at most. -/
theorem Ends.marks {budget : UInt32} {left : Nat} {ended : Session σ × Except Stop Response}
    (ends : terms.Ends method budget left last before ended) :
    ∃ sent status, sent <+: [terms.request method last] ∧
      ended.1.marks = { before.marks.went sent [] with status := status } := by
  have asked {after : Session σ} {sent : List Request}
      (short : sent <+: [terms.request method last])
      (marks : after.marks = before.marks.went sent []) (status : Option UInt16) :
      ∃ sent status', sent <+: [terms.request method last] ∧
        { after.marks with status := status } =
          { before.marks.went sent [] with status := status' } :=
    ⟨sent, status, short, by rw [marks]⟩
  cases ends with
  | @stopped after stop sent =>
      have sends := sends_send terms method last before
      rw [sent] at sends
      cases sends with
      | unsent marks =>
          exact asked List.nil_prefix (marks.trans (Session.Marks.went_nil _).symm) _
      | unanswered marks => exact asked List.prefix_rfl marks _
  | accepted sent => exact asked List.prefix_rfl (Terms.marks_of_answered sent).1 _
  | refused sent => exact asked List.prefix_rfl (Terms.marks_of_answered sent).1 _
  | exhausted sent => exact asked List.prefix_rfl (Terms.marks_of_answered sent).1 _
  | overflowed sent => exact asked List.prefix_rfl (Terms.marks_of_answered sent).1 _

/-- What a fetch that followed the targets leaves behind. -/
structure Followed (terms : Terms) (method : Method) (url : Url) (session : Session σ)
    (targets : List Url) (ended : Session σ × Except Stop Response) : Prop where
  /-- The targets are those to which the answers of the origin led, one after another. -/
  leads : terms.network.Leads (terms.request method) session.requests url targets
  within : targets.length ≤ terms.redirectBudget.toNat
  /-- The targets, and nothing else, went on the path. -/
  path : ended.1.outcome.redirectionPath =
    session.outcome.redirectionPath ++ targets.map Url.text
  /-- There was a request for each link, with or without one for the last target. -/
  requests : ∃ sent, ended.1.requests = session.requests ++ sent ∧
    sent <+: (url :: targets).map (terms.request method) ∧ targets.length ≤ sent.length
  /-- A response that is given is a success and no redirect to follow; it is the answer to the
  request for the last target. -/
  given : ∀ response, ended.2 = .ok response →
    response.isSuccess = true ∧
      response.redirectTarget? terms.network.domains
        ((url :: targets).getLast (List.cons_ne_nil _ _)) = none ∧
      ended.1.outcome.httpStatus = some response.status ∧
      ∃ delay, terms.network.exchange
        (session.requests ++ (url :: targets).dropLast.map (terms.request method))
        (terms.request method ((url :: targets).getLast (List.cons_ne_nil _ _))) =
          .answered delay response

theorem followed_of_trail {budget : UInt32} {left : Nat} {ended : Session σ × Except Stop Response}
    (trail : terms.Trail method url session targets last before)
    (within : targets.length ≤ terms.redirectBudget.toNat)
    (ends : terms.Ends method budget left last before ended) :
    terms.Followed method url session targets ended := by
  obtain ⟨rfl, reached⟩ := trail.marks
  obtain ⟨sent, status, short, marks⟩ := ends.marks
  rw [reached, Session.Marks.went_went, List.append_nil] at marks
  refine ⟨trail.leads, within, congrArg Session.Marks.path marks, ?_, ?_⟩
  · refine ⟨_, congrArg Session.Marks.requests marks, ?_, ?_⟩
    · rw [← map_dropLast_append (terms.request method) url targets]
      exact (List.prefix_append_right_inj _).2 short
    · simp
  · rintro response given
    cases ends with
    | accepted sent final success =>
        cases given
        obtain ⟨_, delay, told⟩ := Terms.marks_of_answered sent
        have earlier : before.requests =
            session.requests ++ (url :: targets).dropLast.map (terms.request method) :=
          congrArg Session.Marks.requests reached
        exact ⟨success, final, rfl, delay, earlier ▸ told⟩
    | stopped | refused | exhausted | overflowed => cases given

/-- A fetch that comes to a redirect whose target cannot be told fails with the status of that. -/
theorem fetch_of_misleads (trail : terms.Trail method url session targets last before)
    (within : targets.length ≤ terms.redirectBudget.toNat)
    (sent : terms.send method last before = (after, .ok response))
    (redirect : response.isRedirect = true)
    (misleads : response.Misleads terms.network.domains last) :
    terms.fetch method url session =
      (after.noted response, .error (.failure (.httpStatus response.status))) :=
  fetch_eq_iff.2 ⟨targets, last, before, trail, within,
    .refused sent (Response.redirectTarget?_of_misleads misleads)
      (Response.isSuccess_eq_false_of_isRedirect redirect)⟩

/-- A fetch that went to so many targets as the budget allows is answered with one more redirect. -/
inductive Overruns (terms : Terms) (method : Method) (url : Url) (session : Session σ)
    (targets : List Url) (response : Response) (after : Session σ) : Prop where
  | intro {last target : Url} {before : Session σ}
      (trail : terms.Trail method url session targets last before)
      (spent : targets.length = terms.redirectBudget.toNat)
      (sent : terms.send method last before = (after, .ok response))
      (redirect : response.redirectTarget? terms.network.domains last = some target)

/-- A fetch that overruns the budget has sent one request more than that. -/
theorem Overruns.marks (overruns : terms.Overruns method url session targets response after) :
    targets.length = terms.redirectBudget.toNat ∧
      after.marks =
        session.marks.went ((url :: targets).map (terms.request method)) targets := by
  obtain ⟨trail, spent, sent, redirect⟩ := overruns
  exact ⟨spent, trail.marks_of_answered sent⟩

/-- It fails if the redirect that was too much can be counted. -/
theorem fetch_of_overruns (overruns : terms.Overruns method url session targets response after)
    (counted : terms.redirectBudget ≠ 4294967295) :
    terms.fetch method url session =
      (after.noted response, .error (.failure (.tooManyRedirects terms.redirectBudget))) := by
  obtain ⟨trail, spent, sent, redirect⟩ := overruns
  refine fetch_eq_iff.2 ⟨targets, _, _, trail, Nat.le_of_eq spent, ?_⟩
  exact .exhausted sent redirect (Nat.sub_eq_zero_of_le (Nat.le_of_eq spent.symm)) counted

/-- With the greatest budget it breaks down. -/
theorem fetch_of_overflow (overruns : terms.Overruns method url session targets response after)
    (greatest : terms.redirectBudget = 4294967295) :
    terms.fetch method url session = (after, .error (.halted .panicked)) := by
  obtain ⟨trail, spent, sent, redirect⟩ := overruns
  refine fetch_eq_iff.2 ⟨targets, _, _, trail, Nat.le_of_eq spent, ?_⟩
  exact .overflowed sent redirect (Nat.sub_eq_zero_of_le (Nat.le_of_eq spent.symm)) greatest

/-! ## Retrievals -/

/-- The fetches of a retrieval, each with the session in which it begins. -/
inductive Reaches (terms : Terms) (task : Task) (url : Url) (session : Session σ) :
    Method → Session σ → Prop where
  | check (kind : task.kind = .checkLink) :
      Reaches terms task url session .head (moved .checkingExistence session)
  | compare {previous : UInt64} (kind : task.kind = .conditionalDownload)
      (known : task.previousLength = some previous) :
      Reaches terms task url session .head (moved .checkingExistence session)
  | download (kind : task.kind = .unconditionalDownload) :
      Reaches terms task url session .get (moved .downloading session)
  | firstDownload (kind : task.kind = .conditionalDownload)
      (unknown : task.previousLength = none) :
      Reaches terms task url session .get (moved .downloading session)
  | renew {previous : UInt64} {middle : Session σ} (kind : task.kind = .conditionalDownload)
      (known : task.previousLength = some previous)
      (changed : terms.isUnchanged url previous session = (middle, .ok false)) :
      Reaches terms task url session .get (moved .downloading middle)

/-- Moving on leaves the path. -/
theorem path_moved (next : RetrievalState) (session : Session σ) :
    (moved next session).outcome.redirectionPath = session.outcome.redirectionPath := by
  change (Outcome.advance next session.outcome).redirectionPath = _
  rw [Outcome.advance]
  split
  · rfl
  · rfl

/-- A changed length starts the path anew. -/
theorem path_of_changed {previous : UInt64}
    (changed : terms.isUnchanged url previous session = (middle, .ok false)) :
    middle.outcome.redirectionPath = [] := by
  unfold isUnchanged at changed
  rw [bind_of_ok (edit_advance .checkingExistence session)] at changed
  rcases checked : terms.check url (moved .checkingExistence session) with ⟨near, stop | current⟩
  · rw [bind_of_error checked] at changed
    cases changed
  · rw [bind_of_ok checked] at changed
    by_cases same : current = some previous
    · rw [if_pos same] at changed
      cases changed
    · rw [if_neg same] at changed
      cases changed
      rfl

/-- Every fetch of a retrieval begins with an empty path. -/
theorem Reaches.fresh {began : Session σ} {visited : List RetrievalState} {task : Task}
    (reaches : terms.Reaches task url session method began) (stands : At session visited)
    (bare : session.outcome.redirectionPath = []) :
    began.outcome.state.isTerminal = false ∧ began.outcome.redirectionPath = [] := by
  cases reaches with
  | check | compare => exact ⟨(stands.moved rfl).going, (path_moved _ session).trans bare⟩
  | download | firstDownload => exact ⟨(stands.moved rfl).going, (path_moved _ session).trans bare⟩
  | @renew previous middle kind known changed =>
      have stood : ∃ visited, At middle visited := by
        rcases isUnchanged_cases terms url previous stands with
          ⟨_, _, ended, _⟩ | ⟨_, _, _, ⟨ended, _⟩ | ⟨ended, stood⟩⟩
        · rw [ended] at changed
          cases changed
        · rw [ended] at changed
          cases changed
        · rw [ended] at changed
          cases changed
          exact ⟨_, stood⟩
      obtain ⟨_, stood⟩ := stood
      exact ⟨(stood.moved rfl).going, (path_moved _ middle).trans (path_of_changed changed)⟩

theorem timed_of_error {α : Type} {stage : Stage σ α}
    (stopped : stage session = (after, .error stop)) (phase : Phase) :
    ∃ last, timed phase stage session = (last, .error stop) ∧ last.marks = after.marks := by
  refine ⟨(timed phase stage session).1, ?_, ?_⟩
  · rw [timed, stopped]
  · rw [timed, stopped]
    rfl

theorem check_of_stopped (stopped : terms.fetch .head url session = (after, .error stop)) :
    ∃ last, terms.check url session = (last, .error stop) ∧ last.marks = after.marks := by
  obtain ⟨last, ended, marks⟩ := timed_of_error stopped .checking
  exact ⟨last, bind_of_error ended _, marks⟩

theorem download_of_stopped [Sink σ]
    (stopped : terms.fetch .get url session = (after, .error stop)) :
    ∃ last, terms.download url session = (last, .error stop) ∧ last.marks = after.marks := by
  obtain ⟨last, ended, marks⟩ := timed_of_error stopped .connect
  exact ⟨last, bind_of_error ended _, marks⟩

/-- A retrieval does not go on after a fetch that stopped. -/
theorem execute_of_stopped [Sink σ] {began : Session σ} {task : Task}
    (link : task.link terms.network.domains = .ok url)
    (timely : terms.setDeadline session = (session, .ok ()))
    (reaches : terms.Reaches task url session method began)
    (stopped : terms.fetch method url began = (after, .error stop)) :
    ∃ last, terms.execute task session = (last, .error stop) ∧ last.marks = after.marks := by
  have loading {near : Session σ} (stopped : terms.fetch .get url (moved .downloading near) =
      (after, .error stop)) :
      ∃ last, terms.beginDownload url near = (last, .error stop) ∧ last.marks = after.marks := by
    obtain ⟨last, ended, marks⟩ := download_of_stopped stopped
    exact ⟨last, (bind_of_ok (edit_advance .downloading near) _).trans ended, marks⟩
  rw [execute, link]
  dsimp only
  rw [bind_of_ok timely, carryOut.eq_def]
  cases reaches with
  | check kind =>
      obtain ⟨last, ended, marks⟩ := check_of_stopped stopped
      rw [kind]
      refine ⟨last, (bind_of_ok (edit_advance .checkingExistence session) _).trans ?_, marks⟩
      exact bind_of_error ended _
  | compare kind known =>
      obtain ⟨last, ended, marks⟩ := check_of_stopped stopped
      rw [kind, known]
      refine ⟨last, bind_of_error ?_ _, marks⟩
      exact (bind_of_ok (edit_advance .checkingExistence session) _).trans (bind_of_error ended _)
  | download kind =>
      rw [kind]
      exact loading stopped
  | firstDownload kind unknown =>
      rw [kind, unknown]
      exact loading stopped
  | renew kind known changed =>
      obtain ⟨last, ended, marks⟩ := loading stopped
      rw [kind, known]
      exact ⟨last, (bind_of_ok changed _).trans ended, marks⟩

end Terms

namespace Session

variable {session : Session σ}

theorem marks_onSink (operation : σ → σ × Except SinkError Unit) (label : String)
    (session : Session σ) : (session.onSink operation label).marks = session.marks := by
  rw [onSink]
  rcases operation session.sink with ⟨sink, error | _⟩
  · rfl
  · rfl

/-- A failure changes nothing but the state of what a fetch left behind. -/
theorem marks_discard [Sink σ] (going : session.outcome.state.isTerminal = false)
    (failure : Failure) :
    (session.discard failure).marks = { session.marks with state := failure.terminalState } := by
  let closed :=
    (session.onSink Sink.truncate "failed to discard partial body").onSink Sink.finish
      "failed to close sink"
  have same : closed.marks = session.marks :=
    (marks_onSink Sink.finish _ _).trans (marks_onSink Sink.truncate _ session)
  have stands : closed.outcome.state.isTerminal = false :=
    (congrArg (fun marks => marks.state.isTerminal) same).trans going
  obtain ⟨log, ended⟩ := Outcome.fail_of_going stands failure
  calc (session.discard failure).marks
      = { closed with outcome := closed.outcome.fail failure }.marks := rfl
    _ = { closed.marks with state := failure.terminalState } := by
        rw [ended]
        rfl
    _ = { session.marks with state := failure.terminalState } := by rw [same]

variable [Sink σ]

/-- A retrieval ends with the failure of its fetch, in the state that belongs to that. -/
theorem retrieve_of_failed {terms : Terms} {task : Task} {url : Url} {method : Method}
    {began after : Session σ} {failure : Failure}
    (link : task.link terms.network.domains = .ok url)
    (timely : terms.setDeadline session = (session, .ok ()))
    (reaches : terms.Reaches task url session method began)
    (failed : terms.fetch method url began = (after, .error (.failure failure)))
    (going : after.outcome.state.isTerminal = false) :
    ∃ ended, session.retrieve terms task = (ended, none) ∧
      ended.marks = { after.marks with state := failure.terminalState } := by
  obtain ⟨last, stopped, marks⟩ := Terms.execute_of_stopped link timely reaches failed
  have running : last.outcome.state.isTerminal = false :=
    (congrArg (fun marks => marks.state.isTerminal) marks).trans going
  refine ⟨_, by rw [retrieve, stopped], ?_⟩
  exact (marks_discard running failure).trans (by rw [marks])

/-- A retrieval breaks down with its fetch. -/
theorem retrieve_of_halted {terms : Terms} {task : Task} {url : Url} {method : Method}
    {began after : Session σ} {halt : Halt}
    (link : task.link terms.network.domains = .ok url)
    (timely : terms.setDeadline session = (session, .ok ()))
    (reaches : terms.Reaches task url session method began)
    (halted : terms.fetch method url began = (after, .error (.halted halt))) :
    ∃ ended, session.retrieve terms task = (ended, some halt) ∧ ended.marks = after.marks := by
  obtain ⟨last, stopped, marks⟩ := Terms.execute_of_stopped link timely reaches halted
  exact ⟨last, by rw [retrieve, stopped], marks⟩

end Session

namespace Terms

/-- How a fetch goes. -/
structure FollowsRedirects (terms : Terms) (method : Method) (url : Url) (session : Session σ) :
    Prop where
  /-- It ends as it does at the end of a trail within the budget. -/
  ends_iff : ∀ ended, terms.fetch method url session = ended ↔
    ∃ targets last before, terms.Trail method url session targets last before ∧
      targets.length ≤ terms.redirectBudget.toNat ∧
      terms.Ends method terms.redirectBudget (terms.redirectBudget.toNat - targets.length) last
        before ended
  /-- It does end if every request does. -/
  returns : terms.EndRequests → ∀ ended,
    terms.fetch method url session ≠ (ended, .error (.halted .stuck))
  followed : ∃ targets, terms.Followed method url session targets (terms.fetch method url session)
  /-- There is one request more than the budget at most. -/
  requests : (terms.fetch method url session).1.requests.length ≤
    session.requests.length + (terms.redirectBudget.toNat + 1)
  /-- A redirect whose target cannot be told is a failure of its status. -/
  misled : ∀ targets last before after, ∀ response : Response,
    terms.Trail method url session targets last before →
    targets.length ≤ terms.redirectBudget.toNat →
    terms.send method last before = (after, .ok response) →
    response.isRedirect = true → response.Misleads terms.network.domains last →
    terms.fetch method url session =
      (after.noted response, .error (.failure (.httpStatus response.status)))
  /-- With the budget used up, one more redirect is sent for and not followed. -/
  overrun : ∀ targets response after,
    terms.Overruns method url session targets response after →
    after.outcome.redirectionPath =
        session.outcome.redirectionPath ++ targets.map Url.text ∧
      targets.length = terms.redirectBudget.toNat ∧
      after.requests.length = session.requests.length + (terms.redirectBudget.toNat + 1)
  /-- It is a failure, and its status is noted. -/
  fails : terms.redirectBudget ≠ 4294967295 → ∀ targets response after,
    terms.Overruns method url session targets response after →
    terms.fetch method url session =
      (after.noted response, .error (.failure (.tooManyRedirects terms.redirectBudget)))
  /-- But if the budget is all that can be counted, it breaks the retrieval down. -/
  breaksDown : terms.redirectBudget = 4294967295 → ∀ targets response after,
    terms.Overruns method url session targets response after →
    terms.fetch method url session = (after, .error (.halted .panicked))

/-- A retrieval in which a fetch overruns the budget ends in an error; it holds the status of the
redirect that was too much, and the targets that the budget allowed.  If the budget is all that can be
counted, the retrieval breaks down with them on its path. -/
def EndsOnOverrun [Sink σ] (terms : Terms) (task : Task) (session : Session σ) : Prop :=
  ∀ url method began targets response after,
    task.link terms.network.domains = .ok url →
    terms.setDeadline session = (session, .ok ()) →
    terms.Reaches task url session method began →
    terms.Overruns method url began targets response after →
    (terms.redirectBudget ≠ 4294967295 →
      ∃ ended, session.retrieve terms task = (ended, none) ∧
        ended.outcome.state = .error ∧
        ended.outcome.httpStatus = some response.status ∧
        ended.outcome.redirectionPath = targets.map Url.text ∧
        ended.outcome.redirectionPath.length = terms.redirectBudget.toNat) ∧
    (terms.redirectBudget = 4294967295 →
      ∃ ended, session.retrieve terms task = (ended, some .panicked) ∧
        ended.outcome.redirectionPath = targets.map Url.text)

theorem endsOnOverrun [Sink σ] (terms : Terms) (task : Task) {session : Session σ}
    {visited : List RetrievalState} (stands : At session visited)
    (bare : session.outcome.redirectionPath = []) : terms.EndsOnOverrun task session := by
  intro url method began targets response after link timely reaches overruns
  obtain ⟨going, empty⟩ := reaches.fresh stands bare
  obtain ⟨spent, marks⟩ := overruns.marks
  have state : after.outcome.state = began.outcome.state := congrArg Session.Marks.state marks
  have path : after.outcome.redirectionPath =
      began.outcome.redirectionPath ++ targets.map Url.text := congrArg Session.Marks.path marks
  rw [empty, List.nil_append] at path
  constructor
  · intro counted
    obtain ⟨ended, retrieved, last⟩ := Session.retrieve_of_failed link timely reaches
      (fetch_of_overruns overruns counted) (state ▸ going)
    have followed : ended.outcome.redirectionPath = targets.map Url.text :=
      (congrArg Session.Marks.path last).trans path
    refine ⟨ended, retrieved, congrArg Session.Marks.state last,
      congrArg Session.Marks.status last, followed, ?_⟩
    rw [followed, List.length_map, spent]
  · intro greatest
    obtain ⟨ended, retrieved, last⟩ := Session.retrieve_of_halted link timely reaches
      (fetch_of_overflow overruns greatest)
    exact ⟨ended, retrieved, (congrArg Session.Marks.path last).trans path⟩

/-- Redirects are counted, so that a fetch whose requests end does. -/
theorem unstuck_fetch {terms : Terms} {method : Method} {url : Url} {session : Session σ}
    (ends : terms.EndRequests) {ended : Session σ} :
    terms.fetch method url session ≠ (ended, .error (.halted .stuck)) := by
  intro stuck
  have returns : (terms.fetch method url).Returns True session fun _ _ => True :=
    returns_follow ends method (fun _ => trivial) UInt32.zero_le url
  rw [Stage.Returns, stuck] at returns
  rcases returns with ⟨⟨⟩⟩ | ⟨⟨⟩, _⟩

theorem followsRedirects_fetch (terms : Terms) (method : Method) (url : Url)
    (session : Session σ) : terms.FollowsRedirects method url session := by
  obtain ⟨targets, last, before, trail, within, ends⟩ :=
    fetch_eq_iff.1 (rfl : terms.fetch method url session = _)
  have followed := followed_of_trail trail within ends
  refine ⟨fun _ => fetch_eq_iff, fun ends _ => unstuck_fetch ends, ⟨targets, followed⟩, ?_, ?_, ?_,
    fun counted _ _ _ overruns => fetch_of_overruns overruns counted,
    fun greatest _ _ _ overruns => fetch_of_overflow overruns greatest⟩
  · obtain ⟨sent, requests, start, _⟩ := followed.requests
    have length := start.length_le
    rw [List.length_map, List.length_cons] at length
    rw [requests, List.length_append]
    omega
  · intro targets last before after response trail within sent redirect misleads
    exact fetch_of_misleads trail within sent redirect misleads
  · intro targets response after overruns
    obtain ⟨spent, marks⟩ := overruns.marks
    refine ⟨congrArg Session.Marks.path marks, spent, ?_⟩
    have requests : after.requests =
        session.requests ++ (url :: targets).map (terms.request method) :=
      congrArg Session.Marks.requests marks
    rw [requests, ← spent]
    simp

/-- Redirects are followed within the budget by every fetch, and one more ends every retrieval. -/
theorem redirects_bounded [Sink σ] (terms : Terms) :
    (∀ method url, ∀ session : Session σ, terms.FollowsRedirects method url session) ∧
      ∀ task sink requests metrics,
        terms.EndsOnOverrun task (Session.start sink requests metrics : Session σ) := by
  refine ⟨followsRedirects_fetch terms, fun task sink requests metrics => ?_⟩
  exact endsOnOverrun terms task ⟨rfl, rfl⟩ rfl

/-! ## Going in circles -/

/-- An origin that sends every request on to the same link. -/
def circular : Network where
  lookup _ := .answered .zero (.error "no such host")
  exchange _ _ := .answered .zero
    ⟨302, [("location", Text.utf8 "/lobby")], none, ⟨[], .complete .zero⟩⟩
  domains := .common
  uptime := .zero

/-- A download from it. -/
def lobbyTask (redirects : UInt32) : Task :=
  ⟨"1", "job", "page", some "http://127.0.0.1/lobby", .unconditionalDownload,
    { Limits.unlimited with redirects := redirects }, ∅, [], ⟨"", "", "", ""⟩⟩

/-- A retrieval that follows so many redirects. -/
def circling (redirects : UInt32) : Terms :=
  ⟨circular, .usual, { Limits.unlimited with redirects := redirects }, none⟩

/-- The link that leads to itself. -/
def lobby : Url :=
  ⟨"http", "", "", some (.address (.v4 127 0 0 1)), none, .rooted ["lobby"], none, none⟩

/-- Where every request is sent on to. -/
def circle : Response :=
  ⟨302, [("location", Text.utf8 "/lobby")], none, ⟨[], .complete .zero⟩⟩

theorem redirectTarget?_circle : circle.redirectTarget? .common lobby = some lobby := by
  decide +kernel

theorem send_circling (redirects : UInt32) (session : Session σ) :
    ∃ after, (circling redirects).send .get lobby session = (after, .ok circle) := ⟨_, rfl⟩

/-- There is no end to the trail. -/
theorem trail_circling (redirects : UInt32) (count : Nat) (session : Session σ) :
    ∃ before, (circling redirects).Trail .get lobby session (.replicate count lobby) lobby
      before := by
  induction count generalizing session with
  | zero => exact ⟨session, .here lobby session⟩
  | succ count ih =>
      obtain ⟨after, sent⟩ := send_circling redirects session
      obtain ⟨before, trail⟩ := ih (after.redirected lobby)
      exact ⟨before, .hop sent redirectTarget?_circle trail⟩

/-- Whatever the budget, it is used up. -/
theorem overruns_circling (redirects : UInt32) (session : Session σ) :
    ∃ targets after, (circling redirects).Overruns .get lobby session targets circle after := by
  obtain ⟨before, trail⟩ :=
    trail_circling redirects (circling redirects).redirectBudget.toNat session
  obtain ⟨after, sent⟩ := send_circling redirects before
  exact ⟨_, after, .intro trail List.length_replicate sent redirectTarget?_circle⟩

/-- If all redirects that can be counted are allowed, one that cannot breaks the retrieval down. -/
theorem panicked_retrieve_circular :
    ∃ ended, (Session.start MemorySink.new [] .zero).retrieve (circling 4294967295)
      (lobbyTask 4294967295) = (ended, some .panicked) := by
  let first : Session MemorySink := .start .new [] .zero
  obtain ⟨targets, after, overruns⟩ := overruns_circling 4294967295 (moved .downloading first)
  have ends : (circling 4294967295).EndsOnOverrun (lobbyTask 4294967295) first :=
    endsOnOverrun _ _ ⟨rfl, rfl⟩ rfl
  obtain ⟨_, breaksDown⟩ := ends lobby .get _ targets circle after (by decide +kernel) rfl
    (.download rfl) overruns
  obtain ⟨ended, broken, _⟩ := breaksDown (by decide)
  exact ⟨ended, broken⟩

/-- A loop is left with three requests if two redirects are allowed. -/
example :
    let ended := ((Session.start MemorySink.new [] .zero).retrieve (circling 2) (lobbyTask 2)).1
    ended.outcome.state = .error ∧ ended.outcome.httpStatus = some 302 ∧
      ended.outcome.redirectionPath = ["http://127.0.0.1/lobby", "http://127.0.0.1/lobby"] ∧
      ended.requests.length = 3 := by
  decide +kernel

end Terms

end MediaHarvest
