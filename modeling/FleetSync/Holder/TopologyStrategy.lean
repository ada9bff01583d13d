import FleetSync.Holder.Strategy

/-!
How topologies are held and announced.

A delta is merged into a known cluster component by component, and always counts as a change, so
that agents may hear of nothing new but never miss anything. A known cluster is dropped by a
deletion once it is empty. What is announced is one broadcast of the event without host names.
-/
namespace FleetSync.Strategy

/-- The verdict on a topology delta. -/
def mergeTopology (scope : ScopeKey) (held : Option Topology) (incoming : Topology)
    (type : EventType) : Except Fault (Verdict Topology) :=
  match held, type with
  | some current, .delete =>
    if current.isEmpty then .ok .remove else .ok (.changed (current.update incoming .delete).1)
  | some current, type => .ok (.changed (current.update incoming type).1)
  | none, .delete => .error (.scopeNotFound scope)
  | none, _ => .ok (.insert incoming)

def topology (settings : TopologySettings) : Strategy Topology where
  name := "topology"
  emptyValue := {}
  merge := mergeTopology
  outbound e := .ok [⟨.broadcast settings.destination, .topology e.agentCopy⟩]

end FleetSync.Strategy
