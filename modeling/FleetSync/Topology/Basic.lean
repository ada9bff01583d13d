import FleetSync.Event
import FleetSync.Topology.Component
import FleetSync.Topology.Host

/-!
The topology of a cluster: its components and its hosts, in the order of their arrival.

A delta is itself a topology. Creating and updating merge it: known components and hosts keep their
places, new ones follow. Deleting takes references, components without references, and hosts away.
Either way the result comes with a report whether a step of the change altered anything.
-/
namespace FleetSync

structure Topology where
  components : List Component := []
  hosts : List Host := []
  deriving DecidableEq

namespace Topology

/-- Neither components nor hosts. -/
def isEmpty (t : Topology) : Bool := t.components.isEmpty && t.hosts.isEmpty

def component? (t : Topology) (service name : String) : Option Component :=
  t.components.find? fun c => c.service = service ∧ c.name = name

def host? (t : Topology) (id : HostId) : Option Host := t.hosts.find? (·.id = id)

/-- The same components by identity alone, and the same hosts. -/
def sameOutline (t u : Topology) : Bool :=
  t.components.map (fun c => (c.name, c.service)) = u.components.map (fun c => (c.name, c.service)) ∧
    t.hosts = u.hosts

/-- Merges a component into the first one of its identity, or adds it at the end. -/
def mergeComponent (delta : Component) : List Component → List Component × Bool
  | [] => ([delta], true)
  | c :: rest =>
    if c.SameIdentity delta then (c.merge delta :: rest, c.gains delta)
    else
      let (rest, changed) := mergeComponent delta rest
      (c :: rest, changed)

/-- Puts a host in the place of the first one with its id, or adds it at the end. -/
def mergeHost (delta : Host) : List Host → List Host × Bool
  | [] => ([delta], true)
  | h :: rest =>
    if h.id = delta.id then (delta :: rest, h ≠ delta)
    else
      let (rest, changed) := mergeHost delta rest
      (h :: rest, changed)

/-- Takes from the first component of an identity the references a delta names. A delta without
references takes the component itself, provided that it has no references left. -/
def removeComponent (delta : Component) : List Component → List Component × Bool
  | [] => ([], false)
  | c :: rest =>
    if c.SameIdentity delta then
      if delta.hasReferences then (c.removeReferences delta :: rest, c.loses delta)
      else if c.hasReferences then (c :: rest, false)
      else (rest, true)
    else
      let (rest, changed) := removeComponent delta rest
      (c :: rest, changed)

/-- Takes every host with the id of a delta away. -/
def removeHost (delta : Host) (hosts : List Host) : List Host × Bool :=
  (hosts.filter (·.id ≠ delta.id), hosts.any (·.id = delta.id))

/-- Runs a step for each delta in turn and reports whether one of them changed anything. -/
def runSteps {α : Type} (step : α → List α → List α × Bool) (deltas items : List α) :
    List α × Bool :=
  deltas.foldl (fun (items, changed) delta =>
    let (items, now) := step delta items
    (items, changed || now)) (items, false)

/-- Applies a step for components and one for hosts. -/
def change (onComponent : Component → List Component → List Component × Bool)
    (onHost : Host → List Host → List Host × Bool) (t delta : Topology) : Topology × Bool :=
  let (components, cs) := runSteps onComponent delta.components t.components
  let (hosts, hs) := runSteps onHost delta.hosts t.hosts
  ({ components, hosts }, cs || hs)

def merge (t delta : Topology) : Topology × Bool := change mergeComponent mergeHost t delta

def remove (t delta : Topology) : Topology × Bool := change removeComponent removeHost t delta

/-- The topology after a delta, and whether anything was altered on the way. -/
def update (t delta : Topology) : EventType → Topology × Bool
  | .create | .update => t.merge delta
  | .delete => t.remove delta

/-- The copy that agents may see: no component names its hosts. -/
def agentCopy (t : Topology) : Topology :=
  { t with components := t.components.map Component.withoutHostNames }

/-- The fields of the JSON form in order. -/
def fieldNames : List String := ["components", "hosts"]

instance : Wire Topology where
  encode t := .object <| Json.field "components" t.components ++ Json.field "hosts" t.hosts
  decode j := do
    let fields ← j.fields? fieldNames
    return {
      components := ← fields.defaulted "components" []
      hosts := ← fields.defaulted "hosts" [] }

end Topology

/-- The copy of an event that agents may see. -/
def Event.agentCopy (e : Event Topology) : Event Topology := e.map Topology.agentCopy

end FleetSync
