import MediaHarvest.Time.Codec

/-!
# Retrieval limits

Every task carries its own limits.  In each dimension zero means that there is no limit, and the
accessors give `none` for it.
-/

namespace MediaHarvest

open MediaHarvest.Json

/-- The limits of one retrieval. -/
structure Limits where
  /-- The bound on opening the connection and receiving the response headers. -/
  connectionTimeout : Span
  /-- The floor of the sustained rate in bytes per second, enforced after a period of grace. -/
  throughputFloor : UInt64
  /-- The bound on the whole retrieval. -/
  retrievalTime : Span
  /-- The number of redirects that are followed. -/
  redirects : UInt32
  /-- The bound on the retrieval and the processing after it. -/
  processingTime : Span
  /-- The size of the largest content that is taken. -/
  contentSize : UInt64
deriving DecidableEq, Repr

namespace Limits

/-- No limit in any dimension. -/
def unlimited : Limits := ⟨.zero, 0, .zero, 0, .zero, 0⟩

instance : Inhabited Limits := ⟨unlimited⟩

/-- A count of zero means that there is no bound. -/
def positive (n : UInt64) : Option UInt64 := if n = 0 then none else some n

/-- The bound on connecting. -/
def connectionBound (limits : Limits) : Option Span := limits.connectionTimeout.bounded

/-- The bound on the retrieval. -/
def retrievalBound (limits : Limits) : Option Span := limits.retrievalTime.bounded

/-- The bound on the retrieval and the processing. -/
def processingBound (limits : Limits) : Option Span := limits.processingTime.bounded

/-- The floor of the rate. -/
def floor (limits : Limits) : Option UInt64 := positive limits.throughputFloor

/-- The bound on the size. -/
def sizeBound (limits : Limits) : Option UInt64 := positive limits.contentSize

/-- How many redirects are followed; the ceiling stands in for a missing limit, so that a loop of
redirects ends. -/
def redirectBudget (limits : Limits) (ceiling : UInt32) : UInt32 :=
  if limits.redirects = 0 then ceiling else limits.redirects

/-- The fields of limits; each is zero if it is not given. -/
def shape : Shape Limits Limits :=
  mk <$> .defaulted "connection_timeout_ms" Span.codec connectionTimeout .zero
    <*> .defaulted "min_throughput_bytes_per_sec" .word64 throughputFloor 0
    <*> .defaulted "max_retrieval_time_ms" Span.codec retrievalTime .zero
    <*> .defaulted "max_redirects" .word32 redirects 0
    <*> .defaulted "max_processing_time_ms" Span.codec processingTime .zero
    <*> .defaulted "max_content_size" .word64 contentSize 0

def codec : Codec Limits := shape.codec "RetrievalLimits"

end Limits

end MediaHarvest
