import FleetSync.Holder.Basic
import FleetSync.Holder.TopologyStrategy
import FleetSync.Registry.Basic

/-!
The holder of cluster topologies, and the registry as its source.
-/
namespace FleetSync

/-- The topology of the registered cluster that a scope names. -/
def Registry.topology (r : Registry) (scope : ScopeKey) : Except Fault Topology :=
  match Decimal.int64? scope.toList with
  | none => .error (.invalidScope scope)
  | some id =>
    match r.cluster? id with
    | none => .error (.scopeUnavailable scope "cluster is not registered")
    | some view => .ok view.topology

/-- The scopes of the registered clusters in ascending order of their ids. -/
def Registry.scopes (r : Registry) : List ScopeKey := r.clusterIds.map Decimal.idText

/-- A registry as a source of topologies. -/
def Source.ofRegistry {ω : Type} (registry : ω → Registry) : Source ω Topology where
  scopes := fun site => .ok (registry site.world).scopes site
  fetch scope := fun site => (Op.ofExcept ((registry site.world).topology scope)) site

namespace Holder
variable {ω : Type}

/-- Tells an agent what it has missed, without host names. -/
def agentUpdateIfChanged (h : Holder ω Topology) (prior : Fingerprint) :
    Op (Site ω Topology) (Event Topology) := do
  let e ← h.updateIfChanged prior
  return if e.isNoOp then e else e.agentCopy

/-- Asks for a cluster to be dropped, which happens once it is empty. -/
def removeCluster (h : Holder ω Topology) (scope : ScopeKey) : Op (Site ω Topology) Bool :=
  h.update (.single scope h.strategy.emptyValue .delete)

end Holder
end FleetSync
