import MediaHarvest.Proofs.Retrieval.Run

/-!
# Trails

A fetch goes from link to link.  A `Trail` are the redirects that it follows: each is the answer to
the next request, and its target goes on the path.  `Ends` says how a fetch ends at the last link.
Whatever the origin answers, a fetch is a trail within the budget and such an end.  With the greatest
budget of all, a redirect more cannot be counted.
-/

namespace MediaHarvest

variable {σ α β : Type}

/-! ## Targets -/

/-- A response tells no target: its location is missing, is no visible text, or is no link. -/
inductive Response.Misleads (response : Response) (domains : Domains) (url : Url) : Prop where
  | missing (absent : response.header? "location" = none)
  | illegible {value : Bytes} (given : response.header? "location" = some value)
      (hidden : value.all Response.isVisible = false)
  | unresolvable {location : String} {error : UrlError}
      (given : response.visibleHeader? "location" = some location)
      (refused : Url.parse domains (some url) location = .error error)

/-- The target of a redirect is the link that its location leads to from where it was found. -/
theorem Response.redirectTarget?_eq_some_iff {response : Response} {domains : Domains}
    {url target : Url} :
    response.redirectTarget? domains url = some target ↔
      response.isRedirect = true ∧ ∃ location, response.visibleHeader? "location" = some location ∧
        Url.parse domains (some url) location = .ok target := by
  have unfolded : response.redirectTarget? domains url =
      if response.isRedirect then (response.visibleHeader? "location").bind fun location =>
        (Url.parse domains (some url) location).toOption
      else none := by
    rw [redirectTarget?]
    cases response.isRedirect <;> rfl
  rw [unfolded]
  cases response.isRedirect with
  | false => simp
  | true =>
      simp only [if_true, Option.bind_eq_some_iff, true_and]
      refine exists_congr fun location => and_congr_right fun _ => ?_
      cases Url.parse domains (some url) location with
      | error error => simp [Except.toOption]
      | ok other => simp [Except.toOption]

theorem Response.redirectTarget?_of_misleads {response : Response} {domains : Domains} {url : Url}
    (misleads : response.Misleads domains url) : response.redirectTarget? domains url = none := by
  rw [Option.eq_none_iff_forall_ne_some]
  intro target told
  obtain ⟨_, location, given, parsed⟩ := redirectTarget?_eq_some_iff.1 told
  cases misleads with
  | missing absent =>
      rw [visibleHeader?, absent] at given
      cases given
  | @illegible value found hidden =>
      have unread : response.visibleHeader? "location" = none := by
        rw [visibleHeader?, found]
        show (do guard (value.all isVisible = true); Text.ofUtf8? value) = none
        rw [hidden]
        rfl
      rw [unread] at given
      cases given
  | unresolvable given' refused =>
      rw [given] at given'
      cases given'
      rw [parsed] at refused
      cases refused

/-- A redirect is no success. -/
theorem Response.isSuccess_eq_false_of_isRedirect {response : Response}
    (redirect : response.isRedirect = true) : response.isSuccess = false := by
  simp only [isRedirect, isSuccess, Bool.and_eq_true, decide_eq_true_eq, Bool.and_eq_false_iff,
    decide_eq_false_iff_not] at redirect ⊢
  exact .inr (UInt16.not_lt.2 redirect.1)

/-- From a link on, after the given requests, the answers lead to the targets one after another. -/
inductive Network.Leads (network : Network) (request : Url → Request) :
    List Request → Url → List Url → Prop where
  | here (earlier : List Request) (url : Url) : Leads network request earlier url []
  | hop {earlier : List Request} {url target : Url} {targets : List Url} {response : Response}
      {delay : Span}
      (told : network.exchange earlier (request url) = .answered delay response)
      (redirect : response.redirectTarget? network.domains url = some target)
      (rest : Leads network request (earlier ++ [request url]) target targets) :
      Leads network request earlier url (target :: targets)

/-! ## What a request leaves behind -/

namespace Session

/-- What a fetch may change of a session, apart from the time and the address of the origin. -/
structure Marks where
  requests : List Request
  path : List String
  status : Option UInt16
  state : RetrievalState

/-- The marks after further requests and redirects. -/
def Marks.went (requests : List Request) (targets : List Url) (marks : Marks) : Marks :=
  { marks with
    requests := marks.requests ++ requests
    path := marks.path ++ targets.map Url.text }

@[simp] theorem Marks.went_nil (marks : Marks) : marks.went [] [] = marks := by
  simp [went]

theorem Marks.went_went (requests requests' : List Request) (targets targets' : List Url)
    (marks : Marks) :
    (marks.went requests targets).went requests' targets' =
      marks.went (requests ++ requests') (targets ++ targets') := by
  simp [went]

/-- The marks of a session. -/
def marks (session : Session σ) : Marks :=
  ⟨session.requests, session.outcome.redirectionPath, session.outcome.httpStatus,
    session.outcome.state⟩

/-- The session after the status of a response was noted. -/
def noted (response : Response) (session : Session σ) : Session σ :=
  { session with outcome := { session.outcome with httpStatus := some response.status } }

/-- The session on the way to the target of a redirect. -/
def redirected (target : Url) (session : Session σ) : Session σ :=
  { session with
    outcome := { session.outcome with
      redirectionPath := session.outcome.redirectionPath ++ [target.text] } }

theorem marks_redirected (target : Url) (session : Session σ) :
    (session.redirected target).marks = session.marks.went [] [target] := by
  simp [marks, redirected, Marks.went]

end Session

theorem Stage.Waits.marks {stage : Stage σ α} (waits : stage.Waits) (session : Session σ) :
    (stage session).1.marks = session.marks := by
  obtain ⟨elapsed, same⟩ := waits session
  rw [same]
  rfl

namespace Terms

open Stage

variable {terms : Terms} {method : Method} {budget : UInt32} {url target last : Url}
  {targets : List Url} {session middle before after : Session σ} {response : Response} {stop : Stop}

/-- The request for a link. -/
def request (terms : Terms) (method : Method) (url : Url) : Request :=
  ⟨method, url, terms.policy.agent⟩

/-- What sending a request does: it goes out, unless the host is not found, and changes nothing
else. -/
inductive Sends (terms : Terms) (method : Method) (url : Url) (session : Session σ) :
    Session σ × Except Stop Response → Prop where
  | unsent {after : Session σ} {stop : Stop} (marks : after.marks = session.marks) :
      Sends terms method url session (after, .error stop)
  | unanswered {after : Session σ} {stop : Stop}
      (marks : after.marks = session.marks.went [terms.request method url] []) :
      Sends terms method url session (after, .error stop)
  | answered {after : Session σ} {response : Response} {delay : Span}
      (marks : after.marks = session.marks.went [terms.request method url] [])
      (told : terms.network.exchange session.requests (terms.request method url) =
        .answered delay response) :
      Sends terms method url session (after, .ok response)

theorem send_eq (terms : Terms) (method : Method) (url : Url) :
    (terms.send method url : Stage σ Response) = (do
      let now ← clock
      let address ← terms.resolve url (terms.requestBound now)
      edit fun outcome => { outcome with sourceAddress := some address }
      let exchange ← terms.emit (terms.request method url)
      terms.awaitExchange (terms.requestBound now) exchange) := rfl

theorem marks_awaitExchange (terms : Terms) (bound : Option (Span × Failure))
    (exchange : Exchange) (session : Session σ) :
    (terms.awaitExchange bound exchange session).1.marks = session.marks := by
  cases exchange with
  | failed delay detail =>
      exact ((waits_waitWithin _ _ _).bind fun _ => waits_fail _).marks session
  | answered delay response =>
      have waited := (waits_waitWithin terms.cutoff bound delay).marks session
      rcases ended : waitWithin terms.cutoff bound delay session with ⟨middle, stop | _⟩
      · rw [ended] at waited
        rw [awaitExchange, bind_of_error ended]
        exact waited
      · rw [ended] at waited
        rw [awaitExchange, bind_of_ok ended]
        exact waited
  | unanswered => exact (waits_waitInVain _ _).marks session

theorem sends_send (terms : Terms) (method : Method) (url : Url) (session : Session σ) :
    terms.Sends method url session (terms.send method url session) := by
  rw [send_eq, bind_of_ok (rfl : clock session = (session, .ok session.elapsed))]
  generalize terms.requestBound session.elapsed = bound
  have still := (waits_resolve terms url bound).marks session
  rcases found : terms.resolve url bound session with ⟨near, stop | address⟩
  · rw [found] at still
    rw [bind_of_error found]
    exact .unsent still
  · rw [found] at still
    have requests : near.requests = session.requests := congrArg Session.Marks.requests still
    rw [bind_of_ok found]
    let aware : Session σ :=
      { near with outcome := { near.outcome with sourceAddress := some address } }
    let asked : Session σ :=
      { aware with
        requests := near.requests ++ [terms.request method url]
        metrics := near.metrics.networkAttempt }
    let exchange := terms.network.exchange near.requests (terms.request method url)
    rw [bind_of_ok (show edit _ near = (aware, .ok ()) from rfl),
      bind_of_ok (show terms.emit _ aware = (asked, .ok exchange) from rfl)]
    have marks : (terms.awaitExchange bound exchange asked).1.marks =
        session.marks.went [terms.request method url] [] := by
      rw [marks_awaitExchange terms bound exchange asked, ← still]
      simp [Session.marks, Session.Marks.went, asked, aware]
    have given := gives_awaitExchange terms bound exchange asked
    generalize terms.awaitExchange bound exchange asked = ended at marks given ⊢
    rcases ended with ⟨after, stop | response⟩
    · exact .unanswered marks
    · obtain ⟨delay, told⟩ := given response rfl
      exact .answered marks (by rw [← requests]; exact told)

/-! ## Trails -/

/-- Redirects that are followed from a link on, up to a link and a session on the way to it. -/
inductive Trail (terms : Terms) (method : Method) :
    Url → Session σ → List Url → Url → Session σ → Prop where
  | here (url : Url) (session : Session σ) : Trail terms method url session [] url session
  | hop {url target last : Url} {session middle after : Session σ} {targets : List Url}
      {response : Response} (sent : terms.send method url session = (middle, .ok response))
      (redirect : response.redirectTarget? terms.network.domains url = some target)
      (rest : Trail terms method target (middle.redirected target) targets last after) :
      Trail terms method url session (target :: targets) last after

/-- How a fetch ends at its last link, with so many redirects left of the budget. -/
inductive Ends (terms : Terms) (method : Method) (budget : UInt32) (left : Nat) (last : Url)
    (session : Session σ) : Session σ × Except Stop Response → Prop where
  | stopped {after : Session σ} {stop : Stop}
      (sent : terms.send method last session = (after, .error stop)) :
      Ends terms method budget left last session (after, .error stop)
  | accepted {after : Session σ} {response : Response}
      (sent : terms.send method last session = (after, .ok response))
      (final : response.redirectTarget? terms.network.domains last = none)
      (success : response.isSuccess = true) :
      Ends terms method budget left last session (after.noted response, .ok response)
  | refused {after : Session σ} {response : Response}
      (sent : terms.send method last session = (after, .ok response))
      (final : response.redirectTarget? terms.network.domains last = none)
      (failure : response.isSuccess = false) :
      Ends terms method budget left last session
        (after.noted response, .error (.failure (.httpStatus response.status)))
  | exhausted {after : Session σ} {response : Response} {target : Url}
      (sent : terms.send method last session = (after, .ok response))
      (redirect : response.redirectTarget? terms.network.domains last = some target)
      (spent : left = 0) (counted : budget ≠ 4294967295) :
      Ends terms method budget left last session
        (after.noted response, .error (.failure (.tooManyRedirects budget)))
  /-- The redirect that is too much cannot be counted. -/
  | overflowed {after : Session σ} {response : Response} {target : Url}
      (sent : terms.send method last session = (after, .ok response))
      (redirect : response.redirectTarget? terms.network.domains last = some target)
      (spent : left = 0) (greatest : budget = 4294967295) :
      Ends terms method budget left last session (after, .error (.halted .panicked))

/-- One redirect more is beyond the budget exactly if nothing is left of it. -/
theorem lt_hops_iff {hops : UInt32} (within : hops ≤ budget) (notLast : hops ≠ 4294967295) :
    budget < hops + 1 ↔ budget.toNat - hops.toNat = 0 := by
  rw [UInt32.lt_iff_toNat_lt, toNat_succ notLast]
  have le : hops.toNat ≤ budget.toNat := within
  omega

theorem follow_of_ends {hops : UInt32} (within : hops ≤ budget)
    {ended : Session σ × Except Stop Response}
    (ends : terms.Ends method budget (budget.toNat - hops.toNat) last session ended) :
    terms.follow method budget hops last session = ended := by
  rw [follow]
  cases ends with
  | stopped sent => exact bind_of_error sent _
  | accepted sent final success =>
      rw [bind_of_ok sent, final]
      dsimp only
      rw [accept, bind_of_ok rfl, if_pos success]
      rfl
  | refused sent final failure =>
      rw [bind_of_ok sent, final]
      dsimp only
      rw [accept, bind_of_ok rfl, if_neg (by rw [failure]; decide)]
      rfl
  | exhausted sent redirect spent counted =>
      have notLast : hops ≠ 4294967295 := by
        rintro rfl
        have least : 4294967295 ≤ budget.toNat := within
        have most := budget.toNat_lt
        have same : budget.toNat = 4294967295 := by omega
        exact counted (UInt32.toNat_inj.1 same)
      rw [bind_of_ok sent, redirect]
      dsimp only
      rw [dif_neg notLast, if_pos ((lt_hops_iff within notLast).2 spent)]
      rfl
  | overflowed sent redirect spent greatest =>
      have last : hops = 4294967295 := by
        have le : hops.toNat ≤ budget.toNat := within
        rw [← greatest]
        exact UInt32.toNat_inj.1 (by omega)
      rw [bind_of_ok sent, redirect]
      dsimp only
      rw [dif_pos last]
      rfl

/-- Below a budget no word is the last one. -/
theorem ne_last_of_lt {hops : UInt32} (left : hops < budget) : hops ≠ 4294967295 := by
  rintro rfl
  have less : 4294967295 < budget.toNat := left
  have most := budget.toNat_lt
  omega

theorem follow_of_hop {hops : UInt32} (left : hops < budget)
    (sent : terms.send method url session = (middle, .ok response))
    (redirect : response.redirectTarget? terms.network.domains url = some target) :
    terms.follow method budget hops url session =
      terms.follow method budget (hops + 1) target (middle.redirected target) := by
  have notLast := ne_last_of_lt left
  have within : ¬ budget < hops + 1 := by
    rw [lt_hops_iff (UInt32.le_of_lt left) notLast]
    exact Nat.sub_ne_zero_of_lt left
  rw [follow, bind_of_ok sent, redirect]
  dsimp only
  rw [dif_neg notLast, if_neg within]
  rfl

/-- What is left to follow after a trail is followed from where it ends. -/
theorem follow_of_trail (trail : terms.Trail method url session targets last before)
    {hops : UInt32} (within : hops.toNat + targets.length ≤ budget.toNat) :
    ∃ reached : UInt32, reached.toNat = hops.toNat + targets.length ∧
      terms.follow method budget hops url session =
        terms.follow method budget reached last before := by
  induction trail generalizing hops with
  | here url session => exact ⟨hops, rfl, rfl⟩
  | @hop url target last session middle before targets response sent redirect rest ih =>
      rw [List.length_cons] at within ⊢
      have less : hops < budget := UInt32.lt_iff_toNat_lt.2 (by omega)
      have counted := toNat_succ (ne_last_of_lt less)
      obtain ⟨reached, count, same⟩ := @ih (hops + 1) (by omega)
      exact ⟨reached, by omega, (follow_of_hop less sent redirect).trans same⟩

/-- Following ends, after a trail within the budget. -/
theorem exists_trail {hops : UInt32} (within : hops ≤ budget) (url : Url) (session : Session σ) :
    ∃ targets last before, terms.Trail method url session targets last before ∧
      hops.toNat + targets.length ≤ budget.toNat ∧
      terms.Ends method budget (budget.toNat - (hops.toNat + targets.length)) last before
        (terms.follow method budget hops url session) := by
  induction hops using hops_induction generalizing url session with
  | step hops ih =>
      have le : hops.toNat ≤ budget.toNat := within
      have here {ended : Session σ × Except Stop Response}
          (ends : terms.Ends method budget (budget.toNat - hops.toNat) url session ended) :
          ∃ targets last before, terms.Trail method url session targets last before ∧
            hops.toNat + targets.length ≤ budget.toNat ∧
            terms.Ends method budget (budget.toNat - (hops.toNat + targets.length)) last before
              (terms.follow method budget hops url session) := by
        rw [follow_of_ends within ends]
        exact ⟨[], url, session, .here url session, le, ends⟩
      rcases sent : terms.send method url session with ⟨middle, stop | response⟩
      · exact here (.stopped sent)
      · cases redirect : response.redirectTarget? terms.network.domains url with
        | none =>
            cases success : response.isSuccess with
            | true => exact here (.accepted sent redirect success)
            | false => exact here (.refused sent redirect success)
        | some target =>
            by_cases left : hops < budget
            · have notLast := ne_last_of_lt left
              have counted := toNat_succ notLast
              have less : hops.toNat < budget.toNat := left
              have next : hops + 1 ≤ budget := UInt32.le_iff_toNat_le.2 (by omega)
              obtain ⟨targets, last, before, rest, inside, ends⟩ :=
                ih notLast next target (middle.redirected target)
              have split : hops.toNat + (target :: targets).length =
                  (hops + 1).toNat + targets.length := by
                rw [List.length_cons]
                omega
              refine ⟨target :: targets, last, before, .hop sent redirect rest, ?_, ?_⟩
              · rw [split]
                exact inside
              · rw [split, follow_of_hop left sent redirect]
                exact ends
            · have spent : budget.toNat - hops.toNat = 0 := by
                have more : budget.toNat ≤ hops.toNat := UInt32.not_lt.1 left
                omega
              by_cases greatest : budget = 4294967295
              · exact here (.overflowed sent redirect spent greatest)
              · exact here (.exhausted sent redirect spent greatest)

/-- How many redirects a fetch follows. -/
def redirectBudget (terms : Terms) : UInt32 :=
  terms.limits.redirectBudget terms.policy.redirectCeiling

/-- A fetch ends in a way if a trail within the budget leads to that end. -/
theorem fetch_eq_iff {ended : Session σ × Except Stop Response} :
    terms.fetch method url session = ended ↔
      ∃ targets last before, terms.Trail method url session targets last before ∧
        targets.length ≤ terms.redirectBudget.toNat ∧
        terms.Ends method terms.redirectBudget (terms.redirectBudget.toNat - targets.length)
          last before ended := by
  change terms.follow method terms.redirectBudget 0 url session = ended ↔ _
  generalize terms.redirectBudget = budget
  have none : (0 : UInt32).toNat = 0 := rfl
  constructor
  · rintro rfl
    obtain ⟨targets, last, before, trail, within, ends⟩ :=
      @exists_trail σ terms method budget 0 UInt32.zero_le url session
    rw [none, Nat.zero_add] at within ends
    exact ⟨targets, last, before, trail, within, ends⟩
  · rintro ⟨targets, last, before, trail, within, ends⟩
    have begins : (0 : UInt32).toNat + targets.length ≤ budget.toNat := by
      rw [none, Nat.zero_add]
      exact within
    obtain ⟨reached, count, same⟩ := follow_of_trail trail begins
    rw [none, Nat.zero_add] at count
    rw [same]
    apply follow_of_ends
    · rw [UInt32.le_iff_toNat_le, count]
      exact within
    · rw [count]
      exact ends

end Terms

end MediaHarvest
