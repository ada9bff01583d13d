import FleetSync.Identifier
import FleetSync.Json.Record

/-!
A host of a cluster. Hosts are told apart by their ids alone.
-/
namespace FleetSync

structure Host where
  id : HostId
  name : String
  rack : Option String := none
  ipv4 : Option String := none
  deriving DecidableEq

namespace Host

/-- The fields of the JSON form in order. -/
def fieldNames : List String := ["hostId", "hostName", "rackName", "ipv4"]

instance : Wire Host where
  encode h := .object <|
    Json.field "hostId" h.id ++
    Json.field "hostName" h.name ++
    Json.fieldOf "rackName" h.rack ++
    Json.fieldOf "ipv4" h.ipv4
  decode j := do
    let fields ← j.fields? fieldNames
    return {
      id := ← fields.required "hostId"
      name := ← fields.required "hostName"
      rack := ← fields.optional "rackName"
      ipv4 := ← fields.optional "ipv4" }

end Host
end FleetSync
