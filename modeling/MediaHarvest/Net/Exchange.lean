import MediaHarvest.Net.Url
import MediaHarvest.Time.Span

/-!
# Exchanges with origins

A `Network` says what comes of looking up a host and of sending a request.  An origin may answer
the same request differently every time, so the exchange depends on the requests before it.  It may
also leave a request without an answer or a body without an end.  Time passes only where a span says
so.
-/

namespace MediaHarvest

/-- What is asked for. -/
inductive Method where
  | get
  | head
deriving DecidableEq, Repr

def Method.name : Method → String
  | .get => "GET"
  | .head => "HEAD"

/-- A request. -/
structure Request where
  method : Method
  url : Url
  agent : String
deriving DecidableEq, Repr

/-- A request in one line, as the origin sees it. -/
def Request.line (request : Request) : String :=
  let url := { request.url with user := "", password := "" }
  s!"{request.method.name} {url.address} [{request.agent}]"

/-- A piece of a body. -/
structure Chunk where
  /-- How long it takes after the piece before it. -/
  delay : Span
  /-- The bytes. -/
  bytes : Bytes
deriving DecidableEq, Repr

/-- Pieces that go on coming. -/
structure Stream where
  piece : Nat → Chunk
  /-- Every piece takes time. -/
  passes : ∀ index, 0 < (piece index).delay.nanos
  /-- Every piece holds something. -/
  brings : ∀ index, (piece index).bytes ≠ []

/-- What follows the first pieces of a body. -/
inductive BodyEnd where
  | complete (delay : Span)
  | broken (delay : Span) (detail : String)
  /-- Nothing more comes, not even an end. -/
  | silent
  | endless (stream : Stream)

/-- The body of a response. -/
structure Body where
  chunks : List Chunk
  ending : BodyEnd

/-- A response. -/
structure Response where
  status : UInt16
  /-- The header fields in order; their names are in lower case. -/
  headers : List (String × Bytes)
  /-- The address that the response came from. -/
  peer : Option Address
  body : Body

/-- What comes of a request. -/
inductive Exchange where
  | failed (delay : Span) (detail : String)
  | answered (delay : Span) (response : Response)
  /-- The origin keeps the connection and says nothing. -/
  | unanswered

/-- What comes of looking up a host. -/
inductive Lookup where
  /-- The address, or why there is none. -/
  | answered (delay : Span) (result : Except String Address)
  | unanswered

/-- What hosts and origins do, and what else a retrieval finds in the world. -/
structure Network where
  /-- Looks up a host by its name. -/
  lookup : String → Lookup
  /-- Sends a request after the given ones. -/
  exchange : List Request → Request → Exchange
  /-- How names of hosts are spelled. -/
  domains : Domains
  /-- What the clock shows at the beginning of a retrieval. -/
  uptime : Span

namespace Network

/-- A network without origins: only the own host has an address, and no request is answered. -/
def unreachable (delay : Span) : Network where
  lookup name := .answered delay <|
    if name = "localhost" then .ok (.v4 127 0 0 1) else .error "no such host"
  exchange _ _ := .failed delay "no connection"
  domains := .common
  uptime := .zero

/-- Whether the clock can show the time `elapsed` and `span` after the beginning of a retrieval: it
counts seconds with 63 bits. -/
def Shows (network : Network) (elapsed span : Span) : Prop :=
  network.uptime.nanos + elapsed.nanos + span.nanos < Nat.pow 2 63 * 1000000000

instance (network : Network) (elapsed span : Span) : Decidable (network.Shows elapsed span) :=
  inferInstanceAs (Decidable (_ < _))

end Network

namespace Response

/-- The first header field with a name. -/
def header? (response : Response) (name : String) : Option Bytes := response.headers.lookup name

/-- Whether a byte of a header field is visible. -/
def isVisible (byte : UInt8) : Bool := byte == 9 || (32 ≤ byte && byte < 127)

/-- The first header field with a name as a text, if all of it is visible. -/
def visibleHeader? (response : Response) (name : String) : Option String := do
  let value ← response.header? name
  guard (value.all isVisible)
  Text.ofUtf8? value

/-- The length that a response declares. -/
def declaredLength (response : Response) : Option UInt64 := do
  Number.word? (Text.trim (← response.visibleHeader? "content-length")).toList

/-- Whether a response asks to look elsewhere. -/
def isRedirect (response : Response) : Bool := 300 ≤ response.status && response.status < 400

/-- Whether a response is a success. -/
def isSuccess (response : Response) : Bool := 200 ≤ response.status && response.status < 300

/-- The link that a redirect leads to, if it can be told. -/
def redirectTarget? (response : Response) (domains : Domains) (url : Url) : Option Url := do
  guard response.isRedirect
  (Url.parse domains (some url) (← response.visibleHeader? "location")).toOption

end Response

end MediaHarvest
