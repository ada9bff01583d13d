import FleetSync.Holder.Configs
import FleetSync.Holder.Table
import FleetSync.Holder.Topology
import FleetSync.Metrics.Basic
import FleetSync.Publisher.Basic
import FleetSync.Transport.Channel

/-!
The controller side as a whole: a registry, three holders and a publisher that share one channel,
and the files that secret material is read from.

The holder of topologies is fed from the registry or from a table, the other two from tables of
their own. The third holder replaces whole values and broadcasts whole events.
-/
namespace FleetSync

/-- What a holder keeps: its state, its count of updates, and the table that may feed it. -/
structure Station (α : Type) where
  held : Held α := {}
  tally : Tally := {}
  table : SourceTable α := {}

structure Controller where
  settings : Settings := {}
  topologyFromTable : Bool := false
  skipsEqual : Bool := false
  registry : Registry := {}
  channel : Channel := {}
  files : Files := {}
  topology : Station Topology := {}
  configs : Station HostConfigs := {}
  generic : Station HostConfigs := {}
  injected : OrdMap String Nat := ∅
  traced : List String := []
  sent : List Envelope := []

/-- What the source and the transport of a holder work on. -/
structure Surroundings (α : Type) where
  registry : Registry
  channel : Channel
  table : SourceTable α

namespace Surroundings
variable {α : Type}

def transport : Transport (Surroundings α) where
  send e := Op.focus (·.channel) (fun channel w => { w with channel }) (Channel.send e)

/-- The table of a holder as its source. -/
def tableSource [Wire α] (s : Strategy α) : Source (Surroundings α) α :=
  SourceTable.source s (·.table) fun table w => { w with table }

end Surroundings

namespace Controller
variable {α β : Type}

/-- The site of a holder. -/
def siteOf (c : Controller) (s : Station α) : Site (Surroundings α) α where
  held := s.held
  tally := s.tally
  sent := c.sent
  world := { registry := c.registry, channel := c.channel, table := s.table }

/-- What a holder keeps after an operation. -/
def stationOf (site : Site (Surroundings α) α) : Station α where
  held := site.held
  tally := site.tally
  table := site.world.table

/-- What the holders share after an operation of one of them. -/
def afterSite (c : Controller) (site : Site (Surroundings α) α) : Controller :=
  { c with
    registry := site.world.registry
    channel := site.world.channel
    sent := site.sent }

def topologyHolder (c : Controller) : Holder (Surroundings Topology) Topology :=
  let strategy := Strategy.topology c.settings.topology
  { strategy
    source := if c.topologyFromTable then Surroundings.tableSource strategy
      else Source.ofRegistry (·.registry)
    transport := Surroundings.transport }

def configsHolder (c : Controller) : Holder (Surroundings HostConfigs) HostConfigs :=
  let strategy := Strategy.configs c.settings.configs
  { strategy, source := Surroundings.tableSource strategy, transport := Surroundings.transport }

def genericHolder (c : Controller) : Holder (Surroundings HostConfigs) HostConfigs :=
  let strategy := Strategy.wholesale "generic" "/generic" c.skipsEqual
  { strategy, source := Surroundings.tableSource strategy, transport := Surroundings.transport }

/-- An operation of the holder of topologies. -/
def onTopology
    (op : Holder (Surroundings Topology) Topology → Op (Site (Surroundings Topology) Topology) β) :
    Op Controller β := fun c =>
  Op.focus (fun c : Controller => c.siteOf c.topology)
    (fun site c => { c.afterSite site with topology := stationOf site }) (op c.topologyHolder) c

/-- An operation of the holder of configurations. -/
def onConfigs
    (op : Holder (Surroundings HostConfigs) HostConfigs →
      Op (Site (Surroundings HostConfigs) HostConfigs) β) :
    Op Controller β := fun c =>
  Op.focus (fun c : Controller => c.siteOf c.configs)
    (fun site c => { c.afterSite site with configs := stationOf site }) (op c.configsHolder) c

/-- An operation of the holder of whole values. -/
def onGeneric
    (op : Holder (Surroundings HostConfigs) HostConfigs →
      Op (Site (Surroundings HostConfigs) HostConfigs) β) :
    Op Controller β := fun c =>
  Op.focus (fun c : Controller => c.siteOf c.generic)
    (fun site c => { c.afterSite site with generic := stationOf site }) (op c.genericHolder) c

def publisher (c : Controller) : Publisher Channel where
  settings := c.settings.publisher
  secrets := c.settings.secrets
  transport := ⟨Channel.send⟩

/-- An operation of the publisher. -/
def onPublisher (op : Publisher Channel → Op (Desk Channel) β) : Op Controller β := fun c =>
  Op.focus
    (fun c : Controller =>
      { traced := c.traced, injected := c.injected, sent := c.sent, world := c.channel })
    (fun (desk : Desk Channel) c =>
      { c with traced := desk.traced, injected := desk.injected, sent := desk.sent, channel := desk.world })
    (op c.publisher) c

def secretStore (c : Controller) : SecretStore := c.files.secretStore c.settings.secrets

/-- Sends an envelope as it is. -/
def publish (e : Envelope) : Op Controller Unit := fun c =>
  match Channel.send e c.channel with
  | .ok () channel => .ok () { c with channel, sent := c.sent ++ [e] }
  | .error f channel => .error f { c with channel }

end Controller
end FleetSync
