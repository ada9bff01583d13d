import FleetSync.Settings.Basic
import FleetSync.Settings.Tree

/-!
Settings as a tree, and back.

The tree of settings holds every field under the name that it has in the JSON form, and gives the
settings back (`ofTree?_tree`). In a tree of other origin a field that is missing has its default, a
name that is unknown is passed over, and a value of the wrong kind is an error.
-/
namespace FleetSync

/-- A field read in one way, or its default. -/
def Setting.field {α : Type} (read : Setting → Option α) (fields : List (String × Setting))
    (name : String) (absent : α) : Option α :=
  match fields.lookup name with
  | some s => read s
  | none => some absent

namespace TopologySettings

def tree (s : TopologySettings) : Setting := .table [("destination", .text s.destination)]

def ofTree? (t : Setting) : Option TopologySettings := do
  let fields ← t.fields? ["destination"]
  return { destination :=
    ← Setting.field Setting.asText? fields "destination" ({} : TopologySettings).destination }

theorem ofTree?_tree (s : TopologySettings) : ofTree? s.tree = some s := rfl

end TopologySettings

namespace ConfigsSettings

def tree (s : ConfigsSettings) : Setting := .table [("destination", .text s.destination)]

def ofTree? (t : Setting) : Option ConfigsSettings := do
  let fields ← t.fields? ["destination"]
  return { destination :=
    ← Setting.field Setting.asText? fields "destination" ({} : ConfigsSettings).destination }

theorem ofTree?_tree (s : ConfigsSettings) : ofTree? s.tree = some s := rfl

end ConfigsSettings

namespace PublisherSettings

def tree (s : PublisherSettings) : Setting := .table [
  ("destination", .text s.destination),
  ("unassigned_cluster_id", .text s.unassignedClusterId),
  ("custom_command_param", .text s.customCommandParam),
  ("trace_commands", .flag s.traceCommands)]

def ofTree? (t : Setting) : Option PublisherSettings := do
  let fields ← t.fields? fieldNames
  let text := Setting.field Setting.asText? fields
  let standard : PublisherSettings := {}
  return {
    destination := ← text "destination" standard.destination
    unassignedClusterId := ← text "unassigned_cluster_id" standard.unassignedClusterId
    customCommandParam := ← text "custom_command_param" standard.customCommandParam
    traceCommands :=
      ← Setting.field Setting.asFlag? fields "trace_commands" standard.traceCommands }

theorem ofTree?_tree (s : PublisherSettings) : ofTree? s.tree = some s := rfl

end PublisherSettings

namespace SecretsSettings

def tree (s : SecretsSettings) : Setting := .table [
  ("identity_file_name", .text s.identityFileName),
  ("data_directory_param", .text s.dataDirectoryParam)]

def ofTree? (t : Setting) : Option SecretsSettings := do
  let fields ← t.fields? fieldNames
  let text := Setting.field Setting.asText? fields
  let standard : SecretsSettings := {}
  return {
    identityFileName := ← text "identity_file_name" standard.identityFileName
    dataDirectoryParam := ← text "data_directory_param" standard.dataDirectoryParam }

theorem ofTree?_tree (s : SecretsSettings) : ofTree? s.tree = some s := rfl

end SecretsSettings

namespace Settings

def tree (s : Settings) : Setting := .table [
  ("topology", s.topology.tree),
  ("configs", s.configs.tree),
  ("publisher", s.publisher.tree),
  ("secrets", s.secrets.tree)]

def ofTree? (t : Setting) : Option Settings := do
  return {
    topology := ← Setting.field TopologySettings.ofTree? t.entries "topology" {}
    configs := ← Setting.field ConfigsSettings.ofTree? t.entries "configs" {}
    publisher := ← Setting.field PublisherSettings.ofTree? t.entries "publisher" {}
    secrets := ← Setting.field SecretsSettings.ofTree? t.entries "secrets" {} }

/-- Settings that are put into a tree are read from it unchanged. -/
theorem ofTree?_tree (s : Settings) : ofTree? s.tree = some s := rfl

end Settings
end FleetSync
