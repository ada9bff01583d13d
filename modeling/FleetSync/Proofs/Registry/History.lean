import FleetSync.Proofs.Publisher.Faults

/-!
A registry remembers the calls that were made on it.

A call says something about a cluster, about hosts, or about a task (`Call.viewGiven`, `Call.mentions`,
`Call.ownerGiven`). Of all that the calls have said about one of them, the last word counts: a cluster has the view it
was given last, unless it was removed since, a host has the name it was mentioned with last, and a task belongs to the
cluster recorded last. Removing a cluster is the only way to take something back, and it takes back nothing but that
cluster. So the hosts of a registered view are known by name, and commands for them can be given their keytabs.
-/
namespace FleetSync.Registry

/-- The calls that change a registry. -/
inductive Call where
  | upsertCluster (v : ClusterView)
  | removeCluster (id : ClusterId)
  | registerHost (id : HostId) (name : String)
  | recordTask (task : TaskId) (cluster : ClusterId)

namespace Call

def perform (r : Registry) : Call → Registry
  | upsertCluster v => r.upsertCluster v
  | removeCluster id => r.removeCluster id
  | registerHost id name => r.registerHost id name
  | recordTask task cluster => r.recordTask task cluster

/-- What a call says about a cluster, if anything: its view, or that there is none any more. -/
def viewGiven (id : ClusterId) : Call → Option (Option ClusterView)
  | upsertCluster v => if id = v.id then some (some v) else none
  | removeCluster removed => if id = removed then some none else none
  | registerHost .. | recordTask .. => none

/-- The hosts that a call mentions, each with the name it is called by, in their order. -/
def mentions : Call → List (HostId × String)
  | upsertCluster v => v.hosts.map fun h => (h.id, h.name)
  | registerHost id name => [(id, name)]
  | removeCluster _ | recordTask .. => []

/-- The cluster that a call records for a task. -/
def ownerGiven (task : TaskId) : Call → Option ClusterId
  | recordTask recorded cluster => if task = recorded then some cluster else none
  | upsertCluster _ | removeCluster _ | registerHost .. => none

end Call

/-- The registry after calls, the first of them on an empty one. -/
def afterCalls (calls : List Call) : Registry := calls.foldl Call.perform {}

/-- The name that a mention gives a host. -/
def nameGiven (id : HostId) (mention : HostId × String) : Option String :=
  if id = mention.1 then some mention.2 else none

/-- A registry holds what was said last in calls, and lists in ascending order what it holds. -/
structure Remembers (r : Registry) (calls : List Call) : Prop where
  view : ∀ id, r.cluster? id = (lastGiven none (Call.viewGiven id) calls).join
  clusters_ascending : r.clusterIds.Pairwise (· < ·)
  clusters : ∀ id, id ∈ r.clusterIds ↔ ∃ v, r.cluster? id = some v
  name : ∀ id, r.hostName? id = lastGiven none (nameGiven id) (calls.flatMap Call.mentions)
  hosts_ascending : r.hostIds.Pairwise (· < ·)
  hosts : ∀ id, id ∈ r.hostIds ↔ ∃ name, (id, name) ∈ calls.flatMap Call.mentions
  owner : ∀ task, r.taskCluster? task = lastGiven none (Call.ownerGiven task) calls

/-- No dispatch wants for the name of a host: a fault that says so comes from the secret material or from the transport,
and at a controller there is no such fault. -/
structure Serves (r : Registry) (host : HostId) : Prop where
  dispatch : ∀ {ω : Type} (p : Publisher ω) (store : SecretStore) (commands : Commands) (desk desk' : Desk ω),
    (p.dispatch r.lookups store commands).on desk = (.error (.unknownHost host), desk') →
    store.Raises (.unknownHost host) ∨ p.transport.Raises (.unknownHost host)
  controller : ∀ (c : Controller) (commands : Commands), c.registry = r →
    ((Controller.perform (.dispatch commands)).on c).1 ≠ .error (.unknownHost host)

/-- An answer to the question which cluster carries a name: one that does, or none just if no cluster does. -/
structure Finds (r : Registry) (name : String) (answer : Option ClusterId) : Prop where
  carries : ∀ id, answer = some id → ∃ v, r.cluster? id = some v ∧ v.name = name
  none_iff : answer = none ↔ ∀ id v, r.cluster? id = some v → v.name ≠ name

/-! ### One call -/

section
variable (r : Registry) (c : Call)

theorem cluster?_perform (id : ClusterId) :
    (c.perform r).cluster? id = (c.viewGiven id).getD (r.cluster? id) := by
  cases c with
  | upsertCluster v =>
    rw [Call.perform, upsertCluster_eq, cluster?, OrdMap.get?_insert, Call.viewGiven]
    split <;> rfl
  | removeCluster removed =>
    rw [Call.perform, removeCluster, cluster?, OrdMap.get?_erase, Call.viewGiven]
    split <;> rfl
  | registerHost host name => rfl
  | recordTask task cluster => rfl

theorem get?_insert_nameGiven (names : OrdMap HostId String) (host : HostId) (name : String) (id : HostId) :
    (names.insert host name).get? id = lastGiven (names.get? id) (nameGiven id) [(host, name)] := by
  rw [OrdMap.get?_insert, lastGiven_cons, nameGiven]
  split <;> rfl

theorem hostName?_perform (id : HostId) :
    (c.perform r).hostName? id = lastGiven (r.hostName? id) (nameGiven id) c.mentions := by
  cases c with
  | upsertCluster v =>
    rw [Call.perform, upsertCluster_eq, Call.mentions, List.map_eq_flatMap]
    exact view_foldl (fun names : OrdMap HostId String => names.get? id)
      (fun names h => get?_insert_nameGiven names h.id h.name id) v.hosts r.hosts
  | registerHost host name => exact get?_insert_nameGiven r.hosts host name id
  | removeCluster removed => rfl
  | recordTask task cluster => rfl

theorem taskCluster?_perform (task : TaskId) :
    (c.perform r).taskCluster? task = (c.ownerGiven task).or (r.taskCluster? task) := by
  cases c with
  | recordTask recorded cluster =>
    rw [Call.perform, recordTask, taskCluster?, OrdMap.get?_insert, Call.ownerGiven]
    split <;> rfl
  | upsertCluster v =>
    rw [Call.perform, upsertCluster_eq]
    rfl
  | removeCluster removed => rfl
  | registerHost host name => rfl

end

/-! ### Calls one after another -/

section
variable (calls : List Call)

theorem cluster?_afterCalls (id : ClusterId) :
    (afterCalls calls).cluster? id = (lastGiven none (Call.viewGiven id) calls).join := by
  -- being told that there is none is being told something, so it is told from being told nothing
  have hstep : ∀ r c, some ((Call.perform r c).cluster? id) = (c.viewGiven id).or (some (r.cluster? id)) := by
    intro r c
    rw [cluster?_perform]
    cases c.viewGiven id <;> rfl
  have hrun := view_foldl_each (fun r : Registry => some (r.cluster? id)) hstep calls {}
  change some ((afterCalls calls).cluster? id) = lastGiven (some none) (Call.viewGiven id) calls at hrun
  rw [lastGiven_none_or] at hrun
  cases hlast : lastGiven none (Call.viewGiven id) calls <;> rw [hlast] at hrun <;> exact Option.some.inj hrun

theorem hostName?_afterCalls (id : HostId) :
    (afterCalls calls).hostName? id = lastGiven none (nameGiven id) (calls.flatMap Call.mentions) :=
  view_foldl (fun r : Registry => r.hostName? id) (fun r c => hostName?_perform r c id) calls {}

theorem taskCluster?_afterCalls (task : TaskId) :
    (afterCalls calls).taskCluster? task = lastGiven none (Call.ownerGiven task) calls :=
  view_foldl_each (fun r : Registry => r.taskCluster? task) (fun r c => taskCluster?_perform r c task) calls {}

variable {calls}

/-- The hosts that are known are those that were ever mentioned. -/
theorem mem_hostIds_afterCalls {id : HostId} :
    id ∈ (afterCalls calls).hostIds ↔ ∃ name, (id, name) ∈ calls.flatMap Call.mentions := by
  rw [mem_hostIds_iff, hostName?_afterCalls, ← Option.isSome_iff_exists, isSome_lastGiven]
  constructor
  · rintro (hnone | ⟨⟨host, name⟩, hmem, hgiven⟩)
    · cases hnone
    · rw [nameGiven] at hgiven
      split at hgiven
      next hid =>
        cases hid
        exact ⟨name, hmem⟩
      next => cases hgiven
  · rintro ⟨name, hmem⟩
    refine .inr ⟨(id, name), hmem, ?_⟩
    rw [nameGiven, if_pos rfl]
    rfl

/-- A view that is registered was given by a call. -/
theorem mem_of_registered {id : ClusterId} {v : ClusterView} (h : (afterCalls calls).cluster? id = some v) :
    .upsertCluster v ∈ calls := by
  rw [cluster?_afterCalls] at h
  obtain ⟨c, hc, hgiven⟩ := exists_of_lastGiven (Option.join_eq_some_iff.1 h)
  cases c with
  | upsertCluster w =>
    rw [Call.viewGiven] at hgiven
    split at hgiven <;> cases hgiven
    exact hc
  | removeCluster removed =>
    rw [Call.viewGiven] at hgiven
    split at hgiven <;> cases hgiven
  | registerHost host name => cases hgiven
  | recordTask task cluster => cases hgiven

/-- So its hosts were mentioned, and have a name. -/
theorem named_of_registered {id : ClusterId} {v : ClusterView} {h : Host}
    (hv : (afterCalls calls).cluster? id = some v) (hh : h ∈ v.hosts) :
    ∃ name, (afterCalls calls).hostName? h.id = some name := by
  have hmentioned : (h.id, h.name) ∈ calls.flatMap Call.mentions :=
    List.mem_flatMap.2 ⟨_, mem_of_registered hv, List.mem_map.2 ⟨h, hh, rfl⟩⟩
  exact mem_hostIds_iff.1 (mem_hostIds_afterCalls.2 ⟨h.name, hmentioned⟩)

end

theorem remembers_afterCalls (calls : List Call) : (afterCalls calls).Remembers calls where
  view := cluster?_afterCalls calls
  clusters_ascending := clusterIds_ascending _
  clusters _ := mem_clusterIds_iff
  name := hostName?_afterCalls calls
  hosts_ascending := hostIds_ascending _
  hosts _ := mem_hostIds_afterCalls
  owner := taskCluster?_afterCalls calls

/-! ### Looking up hosts and clusters -/

theorem serves_of_named {r : Registry} {host : HostId} {name : String} (h : r.hostName? host = some name) :
    r.Serves host where
  dispatch p store commands desk desk' hout := by
    rcases Publisher.hostName?_of_dispatch hout with hnone | hraises
    · cases h.symm.trans hnone
    · exact hraises
  controller c commands hc hout := by
    have hnone := Controller.hostName?_of_dispatch hout
    rw [hc] at hnone
    cases h.symm.trans hnone

/-- Whichever cluster comes first, looking through the views finds one that carries the name if there is one. -/
theorem finds_of_perm {r : Registry} {entries : List (ClusterId × ClusterView)}
    (h : entries.Perm r.clusters.toList) (name : String) :
    r.Finds name ((entries.find? (·.2.name = name)).map (·.1)) := by
  have hmem : ∀ id v, (id, v) ∈ entries ↔ r.cluster? id = some v := fun id v => by
    rw [h.mem_iff, ← OrdMap.get?_eq_some_iff]
    rfl
  refine ⟨fun id hid => ?_, ?_⟩
  · obtain ⟨e, he, rfl⟩ := Option.map_eq_some_iff.1 hid
    have hname := List.find?_some he
    exact ⟨e.2, (hmem _ _).1 (List.mem_of_find?_eq_some he), of_decide_eq_true hname⟩
  · rw [Option.map_eq_none_iff, List.find?_eq_none]
    constructor
    · intro hno id v hv hname
      exact hno (id, v) ((hmem id v).2 hv) (decide_eq_true hname)
    · intro hno e he hname
      exact hno e.1 e.2 ((hmem e.1 e.2).1 he) (of_decide_eq_true hname)

/-- A registry is coherent after any calls.

It lists the clusters that are registered and the hosts that were ever mentioned, each in strictly ascending order, and
holds the last word on each of them and on each task. Every host of a registered view has a name, so no dispatch fails
for want of it. Removing a cluster leaves hosts and tasks alone, and registering or replacing one leaves the tasks alone
and every host known. The cluster of a name is one whose view carries it, or none if there is none, in whatever order the
views are gone through. -/
theorem coherent_after_calls (calls : List Call) :
    let r := afterCalls calls
    r.Remembers calls ∧
    (∀ id v h, r.cluster? id = some v → h ∈ v.hosts →
      (∃ name, r.hostName? h.id = some name) ∧ r.Serves h.id) ∧
    (∀ id, (r.removeCluster id).hosts = r.hosts ∧ (r.removeCluster id).tasks = r.tasks) ∧
    (∀ v, (∀ id ∈ r.hostIds, id ∈ (r.upsertCluster v).hostIds) ∧ (r.upsertCluster v).tasks = r.tasks) ∧
    ∀ name, r.Finds name (r.clusterIdByName? name) ∧
      ∀ entries : List (ClusterId × ClusterView), entries.Perm r.clusters.toList →
        r.Finds name ((entries.find? (·.2.name = name)).map (·.1)) := by
  intro r
  refine ⟨remembers_afterCalls calls, fun id v h hv hh => ?_, fun id => ⟨rfl, rfl⟩, fun v => ⟨fun id hid => ?_, ?_⟩,
    fun name => ⟨finds_of_perm (.refl _) name, fun entries hentries => finds_of_perm hentries name⟩⟩
  · obtain ⟨name, hname⟩ := named_of_registered hv hh
    exact ⟨⟨name, hname⟩, serves_of_named hname⟩
  · rw [mem_hostIds_iff, ← Option.isSome_iff_exists] at hid ⊢
    change ((Call.upsertCluster v).perform r |>.hostName? id).isSome = true
    rw [hostName?_perform, isSome_lastGiven]
    exact .inl hid
  · rw [upsertCluster_eq]

/-- A host is called by the name that was mentioned last, also within a view. -/
example : (afterCalls [.registerHost 1 "a", .upsertCluster { id := 7, name := "east", hosts := [
    { id := 1, name := "b" }, { id := 1, name := "c" }] }]).hostName? 1 = some "c" := by
  decide

end FleetSync.Registry
