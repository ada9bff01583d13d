import FleetSync.Json.Record
import FleetSync.Path
import FleetSync.Text.Blank
import FleetSync.Text.Quoted

/-!
Settings of the holders and of the command publisher, and the rules they have to obey.

Every setting has a default. Topics are absolute, keys are not blank, and the identity file is named
by a bare file name, so that it never lies outside the data directory. Validation reports the first
rule that is broken, section by section.
-/
namespace FleetSync

/-- Where changes of topology are announced. -/
structure TopologySettings where
  destination : String := "/events/topologies"
  deriving DecidableEq

/-- Where hosts are told their configuration. -/
structure ConfigsSettings where
  destination : String := "/user/configs"
  deriving DecidableEq

/-- How commands are sent out. -/
structure PublisherSettings where
  destination : String := "/user/commands"
  unassignedClusterId : String := "-1"
  customCommandParam : String := "custom_command"
  traceCommands : Bool := false
  deriving DecidableEq

/-- Where keytab material is found. -/
structure SecretsSettings where
  identityFileName : String := "identity.dat"
  dataDirectoryParam : String := "data_directory"
  deriving DecidableEq

structure Settings where
  topology : TopologySettings := {}
  configs : ConfigsSettings := {}
  publisher : PublisherSettings := {}
  secrets : SecretsSettings := {}
  deriving DecidableEq

/-- A broken rule. -/
inductive SettingsFault where
  | relativeTopic (field value : String)
  | blank (field : String)
  | notFileName (value : String)
  deriving DecidableEq

namespace SettingsFault

def message : SettingsFault → String
  | relativeTopic field value => field ++ " must be an absolute topic path, got " ++ Text.quoted value
  | blank field => field ++ " cannot be empty"
  | notFileName value =>
    "secrets.identity_file_name must be a bare file name, got " ++ Text.quoted value

end SettingsFault

/-- A topic starts with a slash. -/
def checkTopic (field value : String) : Except SettingsFault Unit :=
  if value.toList.head? = some '/' then .ok () else .error (.relativeTopic field value)

/-- A key holds more than white space. -/
def checkKey (field value : String) : Except SettingsFault Unit :=
  if Text.isAllBlank value then .error (.blank field) else .ok ()

namespace TopologySettings

def check (s : TopologySettings) : Except SettingsFault Unit :=
  checkTopic "topology.destination" s.destination

instance : Wire TopologySettings where
  encode s := .object (Json.field "destination" s.destination)
  decode j := do
    let fields ← j.fields? ["destination"]
    return { destination := ← fields.defaulted "destination" ({} : TopologySettings).destination }

end TopologySettings

namespace ConfigsSettings

def check (s : ConfigsSettings) : Except SettingsFault Unit :=
  checkTopic "configs.destination" s.destination

instance : Wire ConfigsSettings where
  encode s := .object (Json.field "destination" s.destination)
  decode j := do
    let fields ← j.fields? ["destination"]
    return { destination := ← fields.defaulted "destination" ({} : ConfigsSettings).destination }

end ConfigsSettings

namespace PublisherSettings

def check (s : PublisherSettings) : Except SettingsFault Unit := do
  checkTopic "publisher.destination" s.destination
  checkKey "publisher.unassigned_cluster_id" s.unassignedClusterId
  checkKey "publisher.custom_command_param" s.customCommandParam

/-- The fields of the JSON form in order. -/
def fieldNames : List String :=
  ["destination", "unassigned_cluster_id", "custom_command_param", "trace_commands"]

instance : Wire PublisherSettings where
  encode s := .object <|
    Json.field "destination" s.destination ++
    Json.field "unassigned_cluster_id" s.unassignedClusterId ++
    Json.field "custom_command_param" s.customCommandParam ++
    Json.field "trace_commands" s.traceCommands
  decode j := do
    let fields ← j.fields? fieldNames
    let standard : PublisherSettings := {}
    return {
      destination := ← fields.defaulted "destination" standard.destination
      unassignedClusterId := ← fields.defaulted "unassigned_cluster_id" standard.unassignedClusterId
      customCommandParam := ← fields.defaulted "custom_command_param" standard.customCommandParam
      traceCommands := ← fields.defaulted "trace_commands" standard.traceCommands }

end PublisherSettings

namespace SecretsSettings

/-- The key is checked before the file name. -/
def check (s : SecretsSettings) : Except SettingsFault Unit := do
  checkKey "secrets.data_directory_param" s.dataDirectoryParam
  if Path.isFileName s.identityFileName then .ok () else .error (.notFileName s.identityFileName)

/-- The fields of the JSON form in order. -/
def fieldNames : List String := ["identity_file_name", "data_directory_param"]

instance : Wire SecretsSettings where
  encode s := .object <|
    Json.field "identity_file_name" s.identityFileName ++
    Json.field "data_directory_param" s.dataDirectoryParam
  decode j := do
    let fields ← j.fields? fieldNames
    let standard : SecretsSettings := {}
    return {
      identityFileName := ← fields.defaulted "identity_file_name" standard.identityFileName
      dataDirectoryParam := ← fields.defaulted "data_directory_param" standard.dataDirectoryParam }

end SecretsSettings

namespace Settings

/-- The first broken rule, if there is one. -/
def check (s : Settings) : Except SettingsFault Unit := do
  s.topology.check
  s.configs.check
  s.publisher.check
  s.secrets.check

/-- The sections in order. -/
def fieldNames : List String := ["topology", "configs", "publisher", "secrets"]

instance : Wire Settings where
  encode s := .object <|
    Json.field "topology" s.topology ++
    Json.field "configs" s.configs ++
    Json.field "publisher" s.publisher ++
    Json.field "secrets" s.secrets
  decode j := do
    let fields ← j.fields? fieldNames
    return {
      topology := ← fields.defaulted "topology" {}
      configs := ← fields.defaulted "configs" {}
      publisher := ← fields.defaulted "publisher" {}
      secrets := ← fields.defaulted "secrets" {} }

end Settings
end FleetSync
