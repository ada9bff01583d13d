import FleetSync.Command.Basic
import FleetSync.Error
import FleetSync.Registry.Basic

/-!
Routing: the cluster that each command belongs to.

An execution command is routed by the name of its cluster, or to the cluster for commands that name
none; it is told the id, and being a background command is noted in it. A cancel command goes where
the stage of its task runs.
-/
namespace FleetSync

/-- A command that carries everything it needs on the way. -/
inductive Order where
  | execution (c : ExecutionCommand)
  | cancel (c : CancelCommand)
  deriving DecidableEq

/-- An order with the host and the cluster it is for. -/
structure Routed where
  host : HostId
  cluster : String
  order : Order
  deriving DecidableEq

/-- What the rest of the controller can be asked when commands are routed and enriched. -/
structure Lookups where
  clusterIdByName? : String → Option ClusterId
  hostName? : HostId → Option String
  /-- The cluster of the stage that owns a task. -/
  taskCluster? : TaskId → Option ClusterId

/-- A registry as what can be asked. -/
def Registry.lookups (r : Registry) : Lookups :=
  ⟨r.clusterIdByName?, r.hostName?, r.taskCluster?⟩

namespace Lookups

/-- The cluster of an execution command. -/
def clusterOf (l : Lookups) (unassigned : String) (c : ExecutionCommand) : Except Fault String :=
  match c.clusterName with
  | none => .ok unassigned
  | some name =>
    match l.clusterIdByName? name with
    | some id => .ok (Decimal.idText id)
    | none => .error (.unknownCluster name)

def routeExecution (l : Lookups) (unassigned : String) (host : HostId) (c : ExecutionCommand)
    (background : Bool) : Except Fault Routed := do
  let cluster ← l.clusterOf unassigned c
  let command := { c with clusterId := some cluster, background := c.background || background }
  return ⟨host, cluster, .execution command⟩

/-- Routes a command for a host. -/
def route (l : Lookups) (unassigned : String) (host : HostId) : AgentCommand → Except Fault Routed
  | .execution c => l.routeExecution unassigned host c false
  | .background c => l.routeExecution unassigned host c true
  | .cancel c =>
    match l.taskCluster? c.targetTask with
    | some id => .ok ⟨host, Decimal.idText id, .cancel c⟩
    | none => .error (.unknownTask c.targetTask)

end Lookups
end FleetSync
