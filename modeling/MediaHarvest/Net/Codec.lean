import MediaHarvest.Json.Codec
import MediaHarvest.Net.Address

/-!
# Addresses in JSON

An address is its text.
-/

namespace MediaHarvest

def Address.codec : Json.Codec Address :=
  Json.Codec.parsed "IP address" Address.text fun text =>
    match Address.parse? text with
    | some address => .ok address
    | none => .error "invalid IP address syntax"

end MediaHarvest
