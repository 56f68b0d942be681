import MediaHarvest.Json.Codec
import MediaHarvest.Time.Rfc3339
import MediaHarvest.Time.Span

/-!
# Times in JSON

Instants are texts, spans are whole milliseconds.
-/

namespace MediaHarvest

open MediaHarvest.Json

def Instant.codec : Codec Instant :=
  Codec.parsed "an RFC 3339 formatted date and time string" Time.render fun text =>
    (Time.parse text).mapError Time.TimeError.message

def Span.codec : Codec Span :=
  ⟨fun span => Codec.word64.encode span.wholeMillis,
    fun source tree => Span.ofMillis <$> Codec.word64.decode source tree⟩

end MediaHarvest
