import FleetSync.Fingerprint
import FleetSync.Holder.Strategy

/-!
How configurations are held and announced.

A scope has to be the number of a host, its snapshot is replaced as a whole, and each host is told
its own snapshot and nothing else, with the fingerprint of that snapshot.
-/
namespace FleetSync.Strategy

/-- The host that a scope stands for. -/
def hostOfScope (scope : ScopeKey) : Except Fault HostId :=
  match Decimal.int64? scope.toList with
  | some id => .ok id
  | none => .error (.invalidScope scope)

/-- The event for the host of one scope. -/
def hostEnvelope (topic : String) (type : EventType) (scope : ScopeKey) (payload : HostConfigs) :
    Except Fault Envelope := do
  let host ← hostOfScope scope
  let event := (Event.single scope payload type).withFingerprint (scopeFingerprint payload)
  return ⟨.host host topic, .configs event⟩

def configs (settings : ConfigsSettings) : Strategy HostConfigs where
  name := "configs"
  emptyValue := {}
  merge scope held incoming type := do
    let _ ← hostOfScope scope
    replaceScope scope held incoming type
  outbound e := e.scopes.toList.mapM fun s => hostEnvelope settings.destination e.type s.1 s.2

end FleetSync.Strategy
