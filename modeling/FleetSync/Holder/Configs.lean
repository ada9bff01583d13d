import FleetSync.Holder.Basic
import FleetSync.Holder.ConfigsStrategy
import FleetSync.Registry.Basic

/-!
The holder of host configurations.
-/
namespace FleetSync

/-- The hosts to refresh: those given, else those of the cluster, else, for a cluster without hosts,
all that are registered. -/
def Registry.refreshTargets (r : Registry) (cluster : ClusterId) (hosts : List HostId) :
    Except Fault (List HostId) :=
  match hosts with
  | _ :: _ => .ok hosts
  | [] =>
    match r.cluster? cluster with
    | none => .error (.scopeNotFound (Decimal.idText cluster))
    | some view => .ok (if view.hosts.isEmpty then r.hostIds else view.hosts.map (·.id))

namespace Holder
variable {ω : Type}

/-- Replaces the snapshot of one host and tells it. -/
def updateHost (h : Holder ω HostConfigs) (host : HostId) (configs : HostConfigs) :
    Op (Site ω HostConfigs) Bool :=
  h.update (.single (Decimal.idText host) configs .update)

def removeHost (h : Holder ω HostConfigs) (host : HostId) : Op (Site ω HostConfigs) Bool :=
  h.update (.single (Decimal.idText host) h.strategy.emptyValue .delete)

/-- Tells an agent what it has missed of its own snapshot. -/
def hostUpdateIfChanged (h : Holder ω HostConfigs) (host : HostId) (prior : Fingerprint) :
    Op (Site ω HostConfigs) (Event HostConfigs) :=
  h.scopeUpdateIfChanged (Decimal.idText host) prior

/-- Fetches the snapshots of hosts, all of them before the first is applied, and updates each host.
Returns how many hosts were told. -/
def refreshHosts (h : Holder ω HostConfigs) (registry : Registry) (cluster : ClusterId)
    (hosts : List HostId) : Op (Site ω HostConfigs) Nat := do
  let targets ← Op.ofExcept (registry.refreshTargets cluster hosts)
  let fetched ← targets.mapM fun host => do
    let configs ← h.source.fetch (Decimal.idText host)
    return (host, configs)
  let told ← fetched.mapM fun (host, configs) => h.updateHost host configs
  return told.count true

end Holder
end FleetSync
