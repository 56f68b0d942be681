import MediaHarvest.Proofs.Retrieval.Consistency
import MediaHarvest.Proofs.Retrieval.Redirects
import MediaHarvest.Proofs.Retrieval.Unhurried

/-!
# The limit on sizes

Whether a body is too large depends on its size and on the size that is declared, not on the pieces
in which it comes: the pieces that were taken before the limit was reached are discarded again.  So
of an unhurried transfer either everything is kept or nothing.
-/

namespace MediaHarvest

open Stage Session

namespace Limits

/-- A size that is too large. -/
def Excludes (limits : Limits) (size : Nat) : Prop :=
  limits.contentSize ≠ 0 ∧ limits.contentSize.toNat < size

instance (limits : Limits) (size : Nat) : Decidable (limits.Excludes size) :=
  inferInstanceAs (Decidable (_ ∧ _))

variable {limits : Limits} {size more : Nat}

theorem Excludes.mono (excluded : limits.Excludes size) (within : size ≤ more) :
    limits.Excludes more :=
  ⟨excluded.1, Nat.lt_of_lt_of_le excluded.2 within⟩

/-- Nothing at all is never too large. -/
theorem not_excludes_zero (limits : Limits) : ¬ limits.Excludes 0 :=
  fun excluded => Nat.not_lt_zero _ excluded.2

/-- A size up to the limit is not too large. -/
theorem not_excludes_of_le (within : size ≤ limits.contentSize.toNat) : ¬ limits.Excludes size :=
  fun excluded => Nat.not_lt.2 within excluded.2

end Limits

/-- What a response declares or what its body holds is too large. -/
def Response.Oversized (response : Response) (limits : Limits) : Prop :=
  (∃ declared, response.declaredLength = some declared ∧ limits.Excludes declared.toNat) ∨
    limits.Excludes response.body.content.length

namespace Terms

variable {σ : Type} {terms : Terms}

/-! ## Taking a body -/

theorem checkSize_of_excluded {size : Nat} (excluded : terms.limits.Excludes size)
    (session : Session σ) :
    terms.checkSize size session =
      (session,
        .error (.failure (.tooLarge (UInt64.ofNat size) terms.limits.contentSize))) := by
  rw [checkSize, Limits.sizeBound, Limits.positive, if_neg excluded.1]
  dsimp only
  rw [if_pos excluded.2]
  rfl

theorem checkSize_of_allowed {size : Nat} (allowed : ¬ terms.limits.Excludes size)
    (session : Session σ) : terms.checkSize size session = (session, .ok ()) := by
  rw [checkSize, Limits.sizeBound, Limits.positive]
  by_cases unbounded : terms.limits.contentSize = 0
  · rw [if_pos unbounded]
    rfl
  · rw [if_neg unbounded]
    dsimp only
    rw [if_neg fun above => allowed ⟨unbounded, above⟩]
    rfl

variable [Sink σ]

/-- A sink takes a piece or fails. -/
theorem store_ne_halted (piece : Bytes) (session : Session σ) {after : Session σ} {halt : Halt} :
    store piece session ≠ (after, .error (.halted halt)) := by
  rw [store]
  rcases Sink.write piece session.sink with ⟨sink, error | _⟩
  · rintro ⟨⟩
  · rintro ⟨⟩

variable {view : SinkView σ} {visited : List RetrievalState} {past : Past}
  {session : Session σ}

/-- How taking a content ends: all of it is in the sink, or it is too large. -/
inductive Taken (terms : Terms) (view : SinkView σ) (visited : List RetrievalState) (past : Past)
    (tooLarge : Prop) (content : Bytes) : Session σ × Except Stop Nat → Prop where
  | whole {after : Session σ} (allowed : ¬ tooLarge)
      (stands : after.Stands view visited content past) :
      Taken terms view visited past tooLarge content (after, .ok content.length)
  | refused {after : Session σ} {size : Nat} (excluded : tooLarge)
      (spoilt : after.Spoilt view visited past) :
      Taken terms view visited past tooLarge content
        (after, .error (.failure (.tooLarge (UInt64.ofNat size) terms.limits.contentSize)))

theorem Taken.imp {tooLarge tooLarge' : Prop} {content : Bytes}
    {ended : Session σ × Except Stop Nat}
    (taken : Taken terms view visited past tooLarge content ended) (same : tooLarge ↔ tooLarge') :
    Taken terms view visited past tooLarge' content ended :=
  propext same ▸ taken

/-- Noting the time of a transfer changes nothing else. -/
theorem Taken.timed {tooLarge : Prop} {content : Bytes} {stage : Stage σ Nat}
    (taken : Taken terms view visited past tooLarge content (stage session)) (phase : Phase) :
    Taken terms view visited past tooLarge content (Stage.timed phase stage session) := by
  unfold Stage.timed
  generalize stage session = ended at taken ⊢
  cases taken with
  | whole allowed stands => exact .whole allowed (stands.timed _)
  | refused excluded spoilt =>
      obtain ⟨part, stands⟩ := spoilt
      exact .refused excluded ⟨part, stands.timed _⟩

/-- A body is taken as a whole, unless what is in the sink and what is still to come is too
large. -/
theorem taken_takeBody (unhurried : terms.Unhurried) (started : Span) {ending : BodyEnd}
    (complete : ending.IsComplete) (chunks : List Chunk) {held : Bytes}
    (allowed : ¬ terms.limits.Excludes held.length) {session : Session σ}
    (stands : session.Stands view visited held past) :
    Taken terms view visited past
      (terms.limits.Excludes (held ++ chunks.flatMap Chunk.bytes).length)
      (held ++ chunks.flatMap Chunk.bytes)
      (terms.takeBody started ending chunks held.length session) := by
  induction chunks generalizing held session with
  | nil =>
      obtain ⟨delay, rfl⟩ := complete
      have came := awaitPiece_of_unhurried unhurried started held.length delay session
      rw [takeBody, takeEnd, bind_of_ok came, List.flatMap_nil, List.append_nil]
      exact .whole allowed { stands with }
  | cons chunk rest ih =>
      have came := takePiece_of_unhurried unhurried started held.length chunk session
      have aware : (session.later chunk.delay).Stands view visited held past := { stands with }
      rw [takeBody, List.flatMap_cons, ← List.append_assoc]
      by_cases above : terms.limits.Excludes (held ++ chunk.bytes).length
      · rw [← List.length_append, bind_of_error (checkSize_of_excluded above _)] at came
        rw [bind_of_error came]
        exact .refused (above.mono (List.prefix_append _ _).length_le) ⟨held, aware⟩
      · rw [← List.length_append, bind_of_ok (checkSize_of_allowed above _)] at came
        have put := (meets_store chunk.bytes : Meets _ _ _ fun _ => False) _ aware
        rcases stored : store chunk.bytes (session.later chunk.delay) with ⟨after, (_ | halt) | _⟩
        · rw [stored] at put
          exact put.elim
        · exact absurd stored (store_ne_halted chunk.bytes _)
        · rw [stored] at put
          rw [bind_of_ok stored] at came
          rw [bind_of_ok came]
          exact ih above put

/-- The body of a response is taken as a whole, unless the response is oversized. -/
theorem taken_takeResponse (unhurried : terms.Unhurried) {response : Response}
    (complete : response.body.ending.IsComplete)
    (stands : session.Stands view visited [] past) :
    Taken terms view visited past (response.Oversized terms.limits) response.body.content
      (terms.takeResponse response session) := by
  have taken : Taken terms view visited past
      (terms.limits.Excludes response.body.content.length) response.body.content
      ((do
        let started ← clock
        Stage.timed .retrieval (terms.takeBody started response.body.ending response.body.chunks 0) :
          Stage σ Nat) session) := by
    rw [bind_of_ok (rfl : clock session = (session, .ok session.elapsed))]
    apply Taken.timed
    exact taken_takeBody unhurried _ complete response.body.chunks
      (Limits.not_excludes_zero _) stands
  unfold takeResponse
  cases given : response.declaredLength with
  | none =>
      apply taken.imp
      rw [Response.Oversized, given]
      simp
  | some declared =>
      by_cases above : terms.limits.Excludes declared.toNat
      · dsimp only
        rw [bind_of_error (checkSize_of_excluded above session)]
        exact .refused (.inl ⟨declared, given, above⟩) ⟨[], stands⟩
      · dsimp only
        rw [bind_of_ok (checkSize_of_allowed above session)]
        apply taken.imp
        rw [Response.Oversized, given]
        simp [above]

/-! ## Retrievals with a transfer -/

/-- Every download of a retrieval begins with an empty sink. -/
theorem Reaches.stands {first : List Request} {task : Task} {url : Url} {began : Session σ}
    (reaches : terms.Reaches task url session .get began) (uncut : terms.cutoff = none)
    (stands : session.Stands view [.pending] [] (Since first)) :
    ∃ visited, began.Stands view visited [] (Since first) := by
  cases reaches with
  | download | firstDownload =>
      exact ⟨_, (meets_advance rfl : Meets _ (edit (.advance .downloading)) _ fun _ => False) _ stands⟩
  | @renew previous _ kind known changed =>
      have met := meets_isUnchanged uncut url previous _ stands
      rw [changed] at met
      exact ⟨_, (meets_advance rfl : Meets _ (edit (.advance .downloading)) _ fun _ => False) _ met⟩

/-- After a download was answered with a success its header fields are noted and its body is
taken. -/
theorem execute_of_answered {first : List Request} {task : Task} {url : Url}
    {began after : Session σ} {response : Response} (link : task.link terms.network.domains = .ok url)
    (reaches : terms.Reaches task url session .get began) (unhurried : terms.Unhurried)
    (stands : session.Stands view [.pending] [] (Since first))
    (answered : terms.fetch .get url began = (after, .ok response)) :
    ∃ loading visited, loading.Stands view visited [] (Accepted terms.network first .get response) ∧
      terms.execute task session = terms.takeResponse response loading := by
  obtain ⟨visited, ready⟩ := reaches.stands unhurried.uncut stands
  have met := meets_fetch unhurried.uncut .get url .connect _ ready
  rcases fetched : timed .connect (terms.fetch .get url) began with ⟨near, result⟩
  obtain rfl : result = .ok response :=
    (congrArg Prod.snd fetched).symm.trans (congrArg Prod.snd answered)
  rw [fetched] at met
  let loading : Session σ := (noteHeaders response near).1
  have downloads : terms.download url began = terms.takeResponse response loading := by
    rw [download, bind_of_ok fetched]
    exact bind_of_ok rfl _
  have loads {near : Session σ} (moves : began = moved .downloading near) :
      terms.beginDownload url near = terms.takeResponse response loading := by
    rw [beginDownload, bind_of_ok (edit_advance .downloading near), ← moves]
    exact downloads
  refine ⟨loading, visited, { met with }, ?_⟩
  rw [execute, link]
  dsimp only
  rw [bind_of_ok (setDeadline_of_unhurried unhurried session), carryOut.eq_def]
  cases reaches with
  | download kind =>
      rw [kind]
      exact loads rfl
  | firstDownload kind unknown =>
      rw [kind, unknown]
      exact loads rfl
  | renew kind known changed =>
      rw [kind, known]
      exact (bind_of_ok changed _).trans (loads rfl)

end Terms

variable {σ : Type} [Sink σ] {view : SinkView σ}

/-- An unhurried retrieval into a fresh sink, whose download is answered with a success and a body
up to its end. -/
structure Transfer (view : SinkView σ) where
  terms : Terms
  task : Task
  sink : σ
  requests : List Request
  metrics : Metrics
  url : Url
  /-- The session in which the download begins. -/
  began : Session σ
  answeredIn : Session σ
  response : Response
  unhurried : terms.Unhurried
  ready : view.Ready sink
  fresh : view.contents sink = []
  link : task.link terms.network.domains = .ok url
  reaches : terms.Reaches task url (start sink requests metrics) .get began
  answered : terms.fetch .get url began = (answeredIn, .ok response)
  complete : response.body.ending.IsComplete

namespace Transfer

/-- The retrieval at its end. -/
def ended (transfer : Transfer view) : Session σ × Option Halt :=
  (start transfer.sink transfer.requests transfer.metrics).retrieve transfer.terms transfer.task

/-- What is declared or what comes is too large. -/
def Oversized (transfer : Transfer view) : Prop :=
  transfer.response.Oversized transfer.terms.limits

/-- The limit, the declared length and the body as a whole, of which the pieces are no part. -/
def size (transfer : Transfer view) : UInt64 × Option UInt64 × Bytes :=
  (transfer.terms.limits.contentSize, transfer.response.declaredLength,
    transfer.response.body.content)

/-- The state in which a retrieval ended, the size that it reports and what its sink holds. -/
def result (view : SinkView σ) (session : Session σ) : RetrievalState × UInt64 × Bytes :=
  (session.outcome.state, session.outcome.bytesTransferred, view.contents session.sink)

/-- A retrieval comes to its end with everything that came, unless that was too much; then it is
aborted, and nothing is left. -/
theorem ended_cases (transfer : Transfer view) :
    ∃ last, transfer.ended = (last, none) ∧
      Sink.accepted last.sink = (view.contents last.sink).length ∧
      (transfer.Oversized ∧ result view last = (.abortedSizeLimit, 0, []) ∨
        ¬ transfer.Oversized ∧ result view last =
          (.completed, UInt64.ofNat transfer.response.body.content.length,
            transfer.response.body.content)) := by
  have stands : (start transfer.sink transfer.requests transfer.metrics).Stands view [.pending] []
      (Terms.Since transfer.requests) :=
    ⟨rfl, rfl, transfer.ready, transfer.fresh, List.prefix_rfl⟩
  obtain ⟨loading, visited, loads, executed⟩ := Terms.execute_of_answered transfer.link
    transfer.reaches transfer.unhurried stands transfer.answered
  have taken := Terms.taken_takeResponse transfer.unhurried transfer.complete loads
  rw [ended, retrieve, executed]
  generalize transfer.terms.takeResponse transfer.response loading = done at taken
  cases taken with
  | @whole after allowed stands =>
      obtain ⟨sink, accepted, same, concluded⟩ := conclude_of_ready stands.going stands.ready
        transfer.response.body.content.length
      refine ⟨_, rfl, ?_, .inr ⟨allowed, ?_⟩⟩
      · rw [concluded]
        exact accepted.trans (congrArg List.length same.symm)
      · rw [concluded]
        exact congrArg (Prod.mk _ <| Prod.mk _ ·) (same.trans stands.contents)
  | @refused after size excluded spoilt =>
      obtain ⟨part, stands⟩ := spoilt
      obtain ⟨sink, accepted, empty, discarded⟩ := discard_of_ready stands.ready
        (.tooLarge (UInt64.ofNat size) transfer.terms.limits.contentSize)
      obtain ⟨log, failed⟩ := Outcome.fail_of_going stands.going
        (.tooLarge (UInt64.ofNat size) transfer.terms.limits.contentSize)
      refine ⟨_, rfl, ?_, .inl ⟨excluded, ?_⟩⟩
      · rw [discarded]
        exact accepted.trans (congrArg List.length empty.symm)
      · rw [discarded, failed]
        exact congrArg (Prod.mk _ <| Prod.mk _ ·) empty

/-- How the end of a transfer depends on sizes. -/
structure LimitedBySize (transfer : Transfer view) (last : Session σ) : Prop where
  aborted_iff : last.outcome.state = .abortedSizeLimit ↔ transfer.Oversized
  /-- Nothing is left of what is too large. -/
  aborted : transfer.Oversized → last.outcome.bytesTransferred = 0 ∧
    Sink.accepted last.sink = 0 ∧ view.contents last.sink = []
  completed : ¬ transfer.Oversized → last.outcome.state = .completed ∧
    last.outcome.bytesTransferred = UInt64.ofNat transfer.response.body.content.length ∧
    Sink.accepted last.sink = transfer.response.body.content.length ∧
    view.contents last.sink = transfer.response.body.content
  /-- A body may be as large as the limit. -/
  exact_fits : transfer.response.body.content.length = transfer.terms.limits.contentSize.toNat →
    (∀ declared, transfer.response.declaredLength = some declared →
      declared ≤ transfer.terms.limits.contentSize) → last.outcome.state = .completed
  /-- The pieces in which a body comes do not matter. -/
  rechunked : ∀ other : Transfer view, other.size = transfer.size →
    result view other.ended.1 = result view last

/-- Of equal sizes the same is oversized. -/
theorem oversized_congr {one other : Transfer view} (same : one.size = other.size) :
    one.Oversized ↔ other.Oversized := by
  simp only [size, Prod.mk.injEq] at same
  obtain ⟨limit, declared, content⟩ := same
  simp only [Oversized, Response.Oversized, Limits.Excludes, limit, declared, content]

/-- Every transfer is limited by the size of its body and by what is declared of it, whatever the
pieces. -/
theorem limitedBySize_ended (view : SinkView σ) (transfer : Transfer view) :
    ∃ last, transfer.ended = (last, none) ∧ transfer.LimitedBySize last := by
  obtain ⟨last, ended, accepted, ends⟩ := transfer.ended_cases
  have completed (allowed : ¬ transfer.Oversized) :=
    (ends.resolve_left fun both => allowed both.1).2
  have aborted (excluded : transfer.Oversized) :=
    (ends.resolve_right fun both => both.1 excluded).2
  refine ⟨last, ended, ?_, ?_, ?_, ?_, ?_⟩
  · constructor
    · intro state
      by_contra allowed
      cases state.symm.trans (congrArg Prod.fst (completed allowed))
    · exact fun excluded => congrArg Prod.fst (aborted excluded)
  · intro excluded
    have empty : view.contents last.sink = [] := congrArg (·.2.2) (aborted excluded)
    refine ⟨congrArg (·.2.1) (aborted excluded), ?_, empty⟩
    rw [accepted, empty]
    rfl
  · intro allowed
    have whole : view.contents last.sink = transfer.response.body.content :=
      congrArg (·.2.2) (completed allowed)
    refine ⟨congrArg Prod.fst (completed allowed), congrArg (·.2.1) (completed allowed), ?_, whole⟩
    rw [accepted, whole]
  · intro fits declares
    refine congrArg Prod.fst (completed ?_)
    rintro (⟨declared, given, excluded⟩ | excluded)
    · exact Limits.not_excludes_of_le (UInt64.le_iff_toNat_le.1 (declares declared given)) excluded
    · exact Limits.not_excludes_of_le (Nat.le_of_eq fits) excluded
  · intro other same
    obtain ⟨last', ended', _, ends'⟩ := other.ended_cases
    have alike := oversized_congr same
    rw [ended']
    rcases ends' with ⟨excluded, result⟩ | ⟨allowed, result⟩
    · exact result.trans (aborted (alike.1 excluded)).symm
    · rw [result, completed fun excluded => allowed (alike.2 excluded)]
      have content := congrArg (·.2.2) same
      dsimp only [size] at content
      rw [content]

/-- A limit that the first piece of the page meets exactly. -/
def pageTerms : Terms := ⟨pageNetwork, .usual, { Limits.unlimited with contentSize := 2 }, none⟩

/-- The link of the page's task. -/
def pageUrl : Url :=
  ⟨"http", "", "", some (.address (.v4 192 0 2 1)), none, .rooted [""], none, none⟩

/-- What the page is answered with. -/
def pageResponse : Response :=
  ⟨200, [], none, ⟨[⟨.zero, [1, 2]⟩, ⟨.ofMillis 5, [3]⟩], .complete .zero⟩⟩

/-- The page is found behind its redirect. -/
theorem fetch_page :
    ∃ after, pageTerms.fetch .get pageUrl
      (Terms.moved .downloading (start MemorySink.new [] .zero)) = (after, .ok pageResponse) := by
  let redirect : Response :=
    ⟨302, [("location", Text.utf8 "/page")], none, ⟨[], .complete .zero⟩⟩
  let target : Url := { pageUrl with path := .rooted ["page"] }
  let began := Terms.moved .downloading (start MemorySink.new [] .zero)
  let near := (pageTerms.send .get pageUrl began).1.redirected target
  have sent : pageTerms.send .get pageUrl began =
      ((pageTerms.send .get pageUrl began).1, .ok redirect) := rfl
  have hop : pageTerms.Trail .get pageUrl began [target] target near :=
    .hop sent (by decide +kernel) (.here target near)
  have came : pageTerms.send .get target near =
      ((pageTerms.send .get target near).1, .ok pageResponse) := rfl
  exact ⟨_, Terms.fetch_eq_iff.2 ⟨[target], target, near, hop, by decide,
    .accepted came (by decide +kernel) (by decide)⟩⟩

/-- The download of the page within that limit. -/
def page : Transfer MemorySink.view where
  terms := pageTerms
  task := pageTask
  sink := .new
  requests := []
  metrics := .zero
  url := pageUrl
  began := Terms.moved .downloading (start MemorySink.new [] .zero)
  answeredIn := (pageTerms.fetch .get pageUrl (Terms.moved .downloading (start .new [] .zero))).1
  response := pageResponse
  unhurried := ⟨rfl, rfl, rfl⟩
  ready := rfl
  fresh := rfl
  link := by decide +kernel
  reaches := .download rfl
  answered := by
    obtain ⟨after, answered⟩ := fetch_page
    rw [answered]
  complete := ⟨.zero, rfl⟩

/-- The page is too large with its second piece, so its first one is discarded. -/
theorem limitedBySize_page :
    ∃ last, page.ended = (last, none) ∧ page.LimitedBySize last ∧
      result MemorySink.view last = (.abortedSizeLimit, 0, []) := by
  obtain ⟨last, ended, limited⟩ := limitedBySize_ended MemorySink.view page
  have excluded : page.Oversized := .inr (by decide)
  obtain ⟨bytes, _, empty⟩ := limited.aborted excluded
  exact ⟨last, ended, limited, congr (congrArg Prod.mk (limited.aborted_iff.2 excluded))
    (congr (congrArg Prod.mk bytes) empty)⟩

end Transfer

end MediaHarvest
