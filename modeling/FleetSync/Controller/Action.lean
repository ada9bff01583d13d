import FleetSync.Controller.Basic

/-!
Sessions: what can be done to a controller, one action after another.

An action either replies or fails, and leaves a controller behind in both cases.
-/
namespace FleetSync

/-- What can be done to a holder and to the table that feeds it. -/
inductive HolderAction (α : Type) where
  | load
  | resync
  | currentData
  | fullSnapshot (scope : ScopeKey)
  | updateIfChanged (prior : Fingerprint)
  | scopeUpdateIfChanged (scope : ScopeKey) (prior : Fingerprint)
  | apply (e : Event α)
  | update (e : Event α)
  | setValue (scope : ScopeKey) (value : α)
  | unsetValue (scope : ScopeKey)
  | listScopes (scopes : Option (List ScopeKey))
  /-- An event that is to arrive during the next fetch of a scope. -/
  | expectArrival (scope : ScopeKey) (e : Event α)

/-- What can be done to a controller. -/
inductive Action where
  | upsertCluster (v : ClusterView)
  | removeCluster (id : ClusterId)
  | registerHost (id : HostId) (name : String)
  | recordTask (task : TaskId) (cluster : ClusterId)
  | topology (a : HolderAction Topology)
  /-- Asks for a held cluster to be dropped. -/
  | dropTopology (scope : ScopeKey)
  /-- An agent asks for what it has missed. -/
  | agentPoll (prior : Fingerprint)
  | configs (a : HolderAction HostConfigs)
  | updateHost (host : HostId) (configs : HostConfigs)
  | removeHost (host : HostId)
  /-- A host asks for what it has missed. -/
  | hostPoll (host : HostId) (prior : Fingerprint)
  | refreshHosts (cluster : ClusterId) (hosts : List HostId)
  | generic (a : HolderAction HostConfigs)
  | dispatch (commands : List (HostId × AgentCommand))
  | injectSecret (command : ExecutionCommand) (action : KeytabAction) (host : String)
  | publish (e : Envelope)
  | closeChannel
  | limitChannel (left : Option Nat)
  | writeFile (path : String) (content : List UInt8)
  | makeDirectory (path : String)
  | removeFile (path : String)

/-- What an action comes back with. -/
inductive Reply where
  | done
  | flag (b : Bool)
  | count (n : Nat)
  | topology (t : Topology)
  | topologyEvent (e : Event Topology)
  | configs (c : HostConfigs)
  | configsEvent (e : Event HostConfigs)
  | command (c : ExecutionCommand)

namespace HolderAction
variable {α : Type} [Wire α]

/-- Edits the table of a holder. -/
def editTable (f : SourceTable α → SourceTable α) : Op (Site (Surroundings α) α) Reply := fun site =>
  .ok .done { site with world := { site.world with table := f site.world.table } }

/-- Performs an action on a holder, given how its values and events are reported. -/
def perform (ofValue : α → Reply) (ofEvent : Event α → Reply) (a : HolderAction α)
    (h : Holder (Surroundings α) α) : Op (Site (Surroundings α) α) Reply :=
  match a with
  | load => Reply.flag <$> h.load
  | resync => Reply.flag <$> h.resync
  | currentData => ofEvent <$> h.currentData
  | fullSnapshot scope => ofValue <$> h.fullSnapshot scope
  | updateIfChanged prior => ofEvent <$> h.updateIfChanged prior
  | scopeUpdateIfChanged scope prior => ofEvent <$> h.scopeUpdateIfChanged scope prior
  | apply e => Reply.flag <$> h.apply e
  | update e => Reply.flag <$> h.update e
  | setValue scope v => editTable fun t => { t with values := t.values.insert scope v }
  | unsetValue scope => editTable fun t => { t with values := t.values.erase scope }
  | listScopes scopes => editTable fun t => { t with listed := scopes }
  | expectArrival scope e => editTable fun t => { t with arrivals := t.arrivals.insert scope e }

end HolderAction

namespace Controller

/-- Changes the registry. -/
def editRegistry (f : Registry → Registry) : Op Controller Reply := fun c =>
  .ok .done { c with registry := f c.registry }

/-- Changes the channel. -/
def editChannel (f : Channel → Channel) : Op Controller Reply := fun c =>
  .ok .done { c with channel := f c.channel }

/-- Changes the files. -/
def editFiles (f : Files → Files) : Op Controller Reply := fun c =>
  .ok .done { c with files := f c.files }

/-- Performs one action. -/
def perform : Action → Op Controller Reply
  | .upsertCluster v => editRegistry (·.upsertCluster v)
  | .removeCluster id => editRegistry (·.removeCluster id)
  | .registerHost id name => editRegistry (·.registerHost id name)
  | .recordTask task cluster => editRegistry (·.recordTask task cluster)
  | .topology a => onTopology (a.perform .topology .topologyEvent)
  | .dropTopology scope => onTopology fun h => Reply.flag <$> h.removeCluster scope
  | .agentPoll prior => onTopology fun h => Reply.topologyEvent <$> h.agentUpdateIfChanged prior
  | .configs a => onConfigs (a.perform .configs .configsEvent)
  | .updateHost host configs => onConfigs fun h => Reply.flag <$> h.updateHost host configs
  | .removeHost host => onConfigs fun h => Reply.flag <$> h.removeHost host
  | .hostPoll host prior => onConfigs fun h => Reply.configsEvent <$> h.hostUpdateIfChanged host prior
  | .refreshHosts cluster hosts => do
    let c ← get
    onConfigs fun h => Reply.count <$> h.refreshHosts c.registry cluster hosts
  | .generic a => onGeneric (a.perform .configs .configsEvent)
  | .dispatch commands => do
    let c ← get
    onPublisher fun p => Reply.count <$> p.dispatch c.registry.lookups c.secretStore commands
  | .injectSecret command action host => do
    let c ← get
    onPublisher fun p =>
      Reply.command <$> Op.onItem (p.injectSecret c.secretStore action host) command
  | .publish e => do
    publish e
    return .done
  | .closeChannel => editChannel (·.close)
  | .limitChannel left => editChannel ({ · with budget := left })
  | .writeFile path content => editFiles (·.writeFile path content)
  | .makeDirectory path => editFiles (·.makeDirectory path)
  | .removeFile path => editFiles (·.remove path)

/-- Performs actions one after another, whether or not they fail. -/
def run (actions : List Action) (c : Controller) : Controller :=
  actions.foldl (fun c a => ((perform a).on c).2) c

end Controller
end FleetSync
