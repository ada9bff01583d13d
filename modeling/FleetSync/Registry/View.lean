import FleetSync.Topology.Basic

/-!
Cluster views: what the rest of the controller knows about a cluster.

A view lists the hosts of a cluster and assigns components to host names. The topology of a view
crosses the two: a component that is assigned to no host is left out, and its host ids are those of
the listed hosts that carry one of its names. A name that no listed host carries stays a name.
-/
namespace FleetSync

/-- A component of a service with the hosts it is assigned to. -/
structure Assignment where
  service : String
  component : String
  version : Option String := none
  hostNames : OrdSet String := ∅
  publicHostNames : OrdSet String := ∅
  levelParams : OrdMap String String := ∅
  commandParams : OrdMap String String := ∅
  deriving DecidableEq

structure ClusterView where
  id : ClusterId
  name : String
  hosts : List Host := []
  assignments : List Assignment := []
  deriving DecidableEq

namespace Assignment

/-- The component of an assignment among the given hosts. -/
def toComponent (a : Assignment) (hosts : List Host) : Component where
  name := a.component
  service := a.service
  version := a.version
  hostIds := .ofList ((hosts.filter (·.name ∈ a.hostNames)).map (·.id))
  hostNames := a.hostNames
  publicHostNames := a.publicHostNames
  levelParams := a.levelParams
  commandParams := a.commandParams

end Assignment

namespace ClusterView

/-- The topology of a view. -/
def topology (v : ClusterView) : Topology where
  components := (v.assignments.filter (!·.hostNames.isEmpty)).map (·.toComponent v.hosts)
  hosts := v.hosts

end ClusterView
end FleetSync
