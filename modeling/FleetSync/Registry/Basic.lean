import FleetSync.Registry.View

/-!
The registry of clusters, hosts and tasks that the controller looks things up in.

Registering a cluster registers its hosts; removing one forgets neither hosts nor tasks. A host is
called by the name it was mentioned with last.
-/
namespace FleetSync

structure Registry where
  clusters : OrdMap ClusterId ClusterView := ∅
  hosts : OrdMap HostId String := ∅
  tasks : OrdMap TaskId ClusterId := ∅

namespace Registry

/-- Registers a host, in or out of a cluster. -/
def registerHost (r : Registry) (id : HostId) (name : String) : Registry :=
  { r with hosts := r.hosts.insert id name }

/-- Registers or replaces a cluster, and all hosts it mentions. -/
def upsertCluster (r : Registry) (v : ClusterView) : Registry :=
  let r := v.hosts.foldl (fun r h => r.registerHost h.id h.name) r
  { r with clusters := r.clusters.insert v.id v }

def removeCluster (r : Registry) (id : ClusterId) : Registry :=
  { r with clusters := r.clusters.erase id }

/-- Records the cluster of the stage that owns a task. -/
def recordTask (r : Registry) (task : TaskId) (cluster : ClusterId) : Registry :=
  { r with tasks := r.tasks.insert task cluster }

def clusterIds (r : Registry) : List ClusterId := r.clusters.keys

def hostIds (r : Registry) : List HostId := r.hosts.keys

def cluster? (r : Registry) (id : ClusterId) : Option ClusterView := r.clusters.get? id

/-- The id of the first cluster whose current view carries a name. -/
def clusterIdByName? (r : Registry) (name : String) : Option ClusterId :=
  (r.clusters.toList.find? (·.2.name = name)).map (·.1)

def hostName? (r : Registry) (id : HostId) : Option String := r.hosts.get? id

/-- The cluster of the stage that owns a task. -/
def taskCluster? (r : Registry) (task : TaskId) : Option ClusterId := r.tasks.get? task

variable {r : Registry}

/-- Registering a cluster adds its view, and names its hosts one after another. -/
theorem upsertCluster_eq (r : Registry) (v : ClusterView) :
    r.upsertCluster v = { r with
      clusters := r.clusters.insert v.id v
      hosts := v.hosts.foldl (fun names h => names.insert h.id h.name) r.hosts } := by
  have hhosts : ∀ (hosts : List Host) (r : Registry), hosts.foldl (fun r h => r.registerHost h.id h.name) r =
      { r with hosts := hosts.foldl (fun names h => names.insert h.id h.name) r.hosts } := by
    intro hosts
    induction hosts with
    | nil => exact fun _ => rfl
    | cons h hosts ih => exact fun r => ih (r.registerHost h.id h.name)
  rw [upsertCluster, hhosts]

theorem clusterIds_ascending (r : Registry) : r.clusterIds.Pairwise (· < ·) := r.clusters.keys_ascending

theorem mem_clusterIds_iff {id : ClusterId} : id ∈ r.clusterIds ↔ ∃ v, r.cluster? id = some v := by
  rw [clusterIds, OrdMap.mem_keys_iff, Option.isSome_iff_exists]
  rfl

theorem hostIds_ascending (r : Registry) : r.hostIds.Pairwise (· < ·) := r.hosts.keys_ascending

theorem mem_hostIds_iff {id : HostId} : id ∈ r.hostIds ↔ ∃ name, r.hostName? id = some name := by
  rw [hostIds, OrdMap.mem_keys_iff, Option.isSome_iff_exists]
  rfl

end Registry
end FleetSync
