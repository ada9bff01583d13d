import FleetSync.Controller.Basic
import FleetSync.Text.Quoted

/-!
One-line descriptions of the parts of a controller, for people who look into it.

A description names a thing and lists its fields between braces; texts are quoted.
-/
namespace FleetSync

/-- A name with described fields. -/
def describe (name : String) (fields : List (String × String)) : String :=
  name ++ " \x7b " ++ ", ".intercalate (fields.map fun f => f.1 ++ ": " ++ f.2) ++ " \x7d"

namespace Controller

/-- A holder by its name, the number of its scopes and its fingerprint. -/
def describeHolder {α : Type} (name : String) (held : Held α) : String :=
  describe "StateHolder" [
    ("holder", Text.quoted name),
    ("scopes", String.ofList (Decimal.ofNat held.scopes.size)),
    ("fingerprint", Text.quoted held.fingerprint)]

def describeTopology (c : Controller) : String :=
  describe "TopologyHolder"
    [("inner", describeHolder c.topologyHolder.strategy.name c.topology.held)]

def describeConfigs (c : Controller) : String :=
  describe "ConfigHolder" [("inner", describeHolder c.configsHolder.strategy.name c.configs.held)]

def describeGeneric (c : Controller) : String :=
  describeHolder c.genericHolder.strategy.name c.generic.held

/-- The publisher by its settings. -/
def describePublisher (c : Controller) : String :=
  let p := c.settings.publisher
  let s := c.settings.secrets
  describe "CommandPublisher" [
    ("config", describe "PublisherConfig" [
      ("destination", Text.quoted p.destination),
      ("unassigned_cluster_id", Text.quoted p.unassignedClusterId),
      ("custom_command_param", Text.quoted p.customCommandParam),
      ("trace_commands", if p.traceCommands then "true" else "false")]),
    ("secrets_config", describe "SecretsConfig" [
      ("identity_file_name", Text.quoted s.identityFileName),
      ("data_directory_param", Text.quoted s.dataDirectoryParam)])]

end Controller
end FleetSync
