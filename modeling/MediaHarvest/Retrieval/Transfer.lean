import MediaHarvest.Retrieval.Session
import MediaHarvest.Text.Lossy

/-!
# Requests and transfers

A request is sent to the address of its host, and redirects are followed one by one within the
budget of the task.  The body of the last response is taken into the sink piece by piece; the
limits are looked at after every piece and while the origin is silent.
-/

namespace MediaHarvest

namespace Terms

open Stage

variable {σ : Type}

/-! ## Requests -/

/-- The name of the host that a link is sent to. -/
def hostText? (url : Url) : Option String :=
  match url.host with
  | none => none
  | some (.name "") => none
  | some host => some host.text

/-- The address that a host is given as, if it is. -/
def literalAddress? : Host → Option Address
  | .address address => some address
  | .name text => Address.parse? text

/-- Finds the address of a link's host within a bound. -/
def resolve (terms : Terms) (url : Url) (bound : Option (Span × Failure)) : Stage σ Address :=
  match url.host, hostText? url with
  | some host, some name =>
      match literalAddress? host with
      | some address => pure address
      | none =>
          match terms.network.lookup name with
          | .answered delay result => do
              waitWithin terms.cutoff bound delay
              match result with
              | .ok address => pure address
              | .error reason => fail (.unresolved name reason)
          | .unanswered => waitInVain terms.cutoff bound
  | _, _ => fail (.malformedInput s!"{url.text}: no host")

/-- Puts a request on record, and tells what comes of it. -/
def emit (terms : Terms) (request : Request) : Stage σ Exchange := fun session =>
  let exchange := terms.network.exchange session.requests request
  ({ session with
      requests := session.requests ++ [request]
      metrics := session.metrics.networkAttempt }, .ok exchange)

/-- Waits for what comes of a request within a bound. -/
def awaitExchange (terms : Terms) (bound : Option (Span × Failure)) : Exchange → Stage σ Response
  | .failed delay detail => do
      waitWithin terms.cutoff bound delay
      fail (.network detail)
  | .answered delay response => do
      waitWithin terms.cutoff bound delay
      edit fun outcome =>
        { outcome with sourceAddress := response.peer <|> outcome.sourceAddress }
      pure response
  | .unanswered => waitInVain terms.cutoff bound

/-- Sends one request, up to the header fields of its response. -/
def send (terms : Terms) (method : Method) (url : Url) : Stage σ Response := do
  let bound := terms.requestBound (← clock)
  let address ← terms.resolve url bound
  edit fun outcome => { outcome with sourceAddress := some address }
  terms.awaitExchange bound (← terms.emit ⟨method, url, terms.policy.agent⟩)

/-- Notes the status of a response. -/
def noteStatus (response : Response) : Stage σ Unit :=
  edit fun outcome => { outcome with httpStatus := some response.status }

/-- Notes the link that a redirect leads to. -/
def noteTarget (target : Url) : Stage σ Unit :=
  edit fun outcome => { outcome with redirectionPath := outcome.redirectionPath ++ [target.text] }

/-- Takes a response that is no redirect, which has to be a success. -/
def accept (response : Response) : Stage σ Response := do
  noteStatus response
  if response.isSuccess then pure response else fail (.httpStatus response.status)

/-- Refuses to follow a redirect beyond the budget. -/
def refuse (budget : UInt32) (response : Response) : Stage σ Response := do
  noteStatus response
  fail (.tooManyRedirects budget)

/-- A word counts one redirect more unless it is the last word. -/
theorem toNat_succ {hops : UInt32} (notLast : hops ≠ 4294967295) :
    (hops + 1).toNat = hops.toNat + 1 := by
  have bound := hops.toNat_lt
  have other : hops.toNat ≠ 4294967295 := fun same => notLast (UInt32.toNat_inj.1 same)
  rw [UInt32.toNat_add, UInt32.toNat_one]
  omega

/-- Sends a request and follows redirects up to the budget, after `hops` others; gives the first
response that is no redirect, which has to be a success.  The redirects are counted in a word of 32
bits, and one that cannot be counted there breaks the retrieval down. -/
def follow (terms : Terms) (method : Method) (budget hops : UInt32) (url : Url) :
    Stage σ Response := do
  let response ← terms.send method url
  match response.redirectTarget? terms.network.domains url with
  | none => accept response
  | some target =>
      if last : hops = 4294967295 then breakDown
      else if budget < hops + 1 then refuse budget response
      else do
        noteTarget target
        terms.follow method budget (hops + 1) target
termination_by UInt32.size - hops.toNat
decreasing_by
  have next := toNat_succ last
  have bound := (hops + 1).toNat_lt_size
  omega

/-- Sends a request and follows its redirects. -/
def fetch (terms : Terms) (method : Method) (url : Url) : Stage σ Response :=
  terms.follow method (terms.limits.redirectBudget terms.policy.redirectCeiling) 0 url

/-- Notes the header fields of a response; of several with one name the last counts. -/
def noteHeaders (response : Response) : Stage σ Unit :=
  edit fun outcome =>
    { outcome with
      contentType := response.visibleHeader? "content-type"
      headers := .ofList (response.headers.map fun header => (header.1, Text.lossy header.2)) }

/-! ## Bodies -/

/-- Waits for something that comes in `left`, and looks at the limits whenever a wait is over. -/
def awaitPiece (terms : Terms) (started : Span) (received : Nat) (left : Span) : Stage σ Unit :=
  fun session =>
    match given : terms.bodyWait session.elapsed with
    | .error failure => (session, .error (.failure failure))
    | .ok slice =>
        if left.nanos < slice.nanos then wait terms.cutoff left session
        else
          match wait terms.cutoff slice session with
          | (session, .error stop) => (session, .error stop)
          | (session, .ok ()) =>
              match terms.checkThroughput ⟨session.elapsed.nanos - started.nanos⟩ received with
              | .error failure => (session, .error (.failure failure))
              | .ok () =>
                  have : 0 < slice.nanos := bodyWait_pos given
                  awaitPiece terms started received ⟨left.nanos - slice.nanos⟩ session
termination_by left.nanos
decreasing_by omega

/-- Puts a piece into the sink. -/
def store [Sink σ] (piece : Bytes) : Stage σ Unit := fun session =>
  let (sink, answer) := Sink.write piece session.sink
  ({ session with sink := sink },
    match answer with
    | .ok () => .ok ()
    | .error error => .error (.failure (.sink error.message)))

/-- Fails if more was received than the limit allows. -/
def checkSize (terms : Terms) (received : Nat) : Stage σ Unit :=
  match terms.limits.sizeBound with
  | some limit =>
      if limit.toNat < received then fail (.tooLarge (UInt64.ofNat received) limit) else pure ()
  | none => pure ()

/-- Looks whether the transfer that began at `started` is fast enough. -/
def checkSpeed (terms : Terms) (started : Span) (received : Nat) : Stage σ Unit := do
  let now ← clock
  match terms.checkThroughput ⟨now.nanos - started.nanos⟩ received with
  | .ok () => pure ()
  | .error failure => fail failure

/-- Takes a piece into the sink, after `received` bytes; gives how many there are then. -/
def takePiece [Sink σ] (terms : Terms) (started : Span) (received : Nat) (chunk : Chunk) :
    Stage σ Nat := do
  terms.awaitPiece started received chunk.delay
  let received := received + chunk.bytes.length
  terms.checkSize received
  store chunk.bytes
  terms.checkSpeed started received
  pure received

/-- Waits while nothing comes, and then looks at the limits. -/
def awaitNothing (terms : Terms) (started : Span) (received : Nat) : Stage σ Unit := do
  match terms.bodyWait (← clock) with
  | .ok slice => do
      wait terms.cutoff slice
      terms.checkSpeed started received
  | .error failure => fail failure

/-- Takes what follows the first pieces of a body; gives its size. -/
def takeEnd [Sink σ] (terms : Terms) (started : Span) (received : Nat) : BodyEnd → Stage σ Nat
  | .complete delay => do
      terms.awaitPiece started received delay
      pure received
  | .broken delay detail => do
      terms.awaitPiece started received delay
      fail (.network detail)
  | .silent => forever (fun _ => terms.awaitNothing started received) ()
  | .endless stream =>
      forever
        (fun (index, received) => do
          return (index + 1, ← terms.takePiece started received (stream.piece index)))
        (0, received)

/-- Takes a body into the sink, `received` bytes of which are already there; gives its size.  The
bytes are counted without a bound, which comes to the same as a word of 64 bits below 2^64 bytes: more
than any sink has room for. -/
def takeBody [Sink σ] (terms : Terms) (started : Span) (ending : BodyEnd) :
    List Chunk → Nat → Stage σ Nat
  | [], received => terms.takeEnd started received ending
  | chunk :: rest, received => do
      takeBody terms started ending rest (← terms.takePiece started received chunk)

/-! ## Checking and downloading -/

/-- Asks for the header fields alone; gives the length that they declare. -/
def check (terms : Terms) (url : Url) : Stage σ (Option UInt64) := do
  let response ← timed .checking (terms.fetch .head url)
  noteHeaders response
  pure response.declaredLength

/-- Takes the body of a response into the sink; gives its size. -/
def takeResponse [Sink σ] (terms : Terms) (response : Response) : Stage σ Nat := do
  match response.declaredLength with
  | some declared => terms.checkSize declared.toNat
  | none => pure ()
  let started ← clock
  timed .retrieval (terms.takeBody started response.body.ending response.body.chunks 0)

/-- Takes the content into the sink; gives its size. -/
def download [Sink σ] (terms : Terms) (url : Url) : Stage σ Nat := do
  let response ← timed .connect (terms.fetch .get url)
  noteHeaders response
  terms.takeResponse response

end Terms

end MediaHarvest
