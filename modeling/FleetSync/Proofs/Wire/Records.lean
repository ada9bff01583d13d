import FleetSync.Command.Basic
import FleetSync.Configs
import FleetSync.Event
import FleetSync.Proofs.Wire.Lawful
import FleetSync.Settings.Basic
import FleetSync.Topology.Basic

/-!
The records that are sent, stored or loaded are lawful.

Each proof lists the fields of a record in the order in which they are written. That they have
different names the reader knows lets it find all of them; what remains is field by field the law of
the field's own type, and for a field that may be left out that its condition says so only of the
value that is read in its absence.
-/
namespace FleetSync

open Json (bind_fields?_object)
open Json.Fields (Named named_field named_fieldUnless named_fieldOf)

/-! ### Topologies -/

instance : Wire.Lawful Host where
  decode_encode h := by
    have hn : Named Host.fieldNames _ :=
      (named_field "hostId" h.id).append (named_field "hostName" h.name)
        |>.append (named_fieldOf "rackName" h.rack)
        |>.append (named_fieldOf "ipv4" h.ipv4)
    refine (bind_fields?_object hn (by decide)).trans ?_
    simp [List.lookup_append]

instance : Wire.Lawful Component where
  decode_encode c := by
    have hn : Named Component.fieldNames _ :=
      (named_field "componentName" c.name).append (named_field "serviceName" c.service)
        |>.append (named_fieldOf "displayName" c.displayName)
        |>.append (named_fieldOf "version" c.version)
        |>.append (named_fieldUnless c.hostIds.isEmpty "hostIds" c.hostIds)
        |>.append (named_fieldUnless c.hostNames.isEmpty "hostNames" c.hostNames)
        |>.append (named_fieldUnless c.publicHostNames.isEmpty "publicHostNames" c.publicHostNames)
        |>.append (named_fieldUnless c.levelParams.isEmpty "componentLevelParams" c.levelParams)
        |>.append (named_fieldUnless c.commandParams.isEmpty "commandParams" c.commandParams)
    refine (bind_fields?_object hn (by decide)).trans ?_
    simp [List.lookup_append, OrdSet.isEmpty_iff, OrdMap.isEmpty_iff]

instance : Wire.Lawful Topology where
  decode_encode t := by
    have hn : Named Topology.fieldNames _ :=
      (named_field "components" t.components).append (named_field "hosts" t.hosts)
    refine (bind_fields?_object hn (by decide)).trans ?_
    simp [List.lookup_append]

/-! ### Configurations -/

instance : Wire.Lawful ClusterConfigs where
  decode_encode c := by
    have hn : Named ClusterConfigs.fieldNames _ :=
      (named_field "configurations" c.configurations).append
        (named_fieldUnless c.attributes.isEmpty "configurationAttributes" c.attributes)
    refine (bind_fields?_object hn (by decide)).trans ?_
    simp [List.lookup_append, OrdMap.isEmpty_iff]

instance : Wire.Lawful HostConfigs where
  decode_encode c := by
    have hn : Named HostConfigs.fieldNames _ :=
      (named_field "timestamp" c.timestamp).append (named_field "clusters" c.clusters)
    refine (bind_fields?_object hn (by decide)).trans ?_
    simp [List.lookup_append]

/-! ### Events -/

instance : Wire.Lawful EventType where
  decode_encode t := by cases t <;> rfl

instance {α : Type} [Wire α] [Wire.Lawful α] : Wire.Lawful (Event α) where
  decode_encode e := by
    have hn : Named Event.fieldNames _ :=
      (named_field "clusters" e.scopes).append (named_field "eventType" e.type)
        |>.append (named_fieldOf "fingerprint" e.fingerprint)
    refine (bind_fields?_object hn (by decide)).trans ?_
    simp [List.lookup_append]

/-! ### Keytabs -/

instance : Wire.Lawful IdentityRecord where
  decode_encode r := by
    have hn : Named IdentityRecord.fieldNames _ :=
      (named_field "hostname" r.hostname).append (named_field "service" r.service)
        |>.append (named_field "component" r.component)
        |>.append (named_field "principal" r.principal)
        |>.append (named_field "keytab_file_path" r.path)
        |>.append (named_field "keytab_file_owner_name" r.ownerName)
        |>.append (named_field "keytab_file_owner_access" r.ownerAccess)
        |>.append (named_field "keytab_file_group_name" r.groupName)
        |>.append (named_field "keytab_file_group_access" r.groupAccess)
    refine (bind_fields?_object hn (by decide)).trans ?_
    simp [IdentityRecord.ofFields?, List.lookup_append]

instance : Wire.Lawful KeytabEntry where
  decode_encode e := by
    have hn : Named KeytabEntry.fieldNames _ :=
      (named_field "hostname" e.hostname).append (named_fieldOf "service" e.service)
        |>.append (named_fieldOf "component" e.component)
        |>.append (named_fieldOf "principal" e.principal)
        |>.append (named_fieldOf "keytab_file_path" e.path)
        |>.append (named_fieldOf "keytab_file_owner_name" e.ownerName)
        |>.append (named_fieldOf "keytab_file_owner_access" e.ownerAccess)
        |>.append (named_fieldOf "keytab_file_group_name" e.groupName)
        |>.append (named_fieldOf "keytab_file_group_access" e.groupAccess)
        |>.append (named_fieldOf "keytab_content_base64" e.contentBase64)
    refine (bind_fields?_object hn (by decide)).trans ?_
    simp [IdentityRecord.ofFields?, List.lookup_append]

/-! ### Commands -/

theorem ExecutionCommand.named_toFields (c : ExecutionCommand) : Named fieldNames c.toFields :=
  (named_field "hostname" c.hostname).append (named_fieldOf "clusterName" c.clusterName)
    |>.append (named_fieldOf "clusterId" c.clusterId)
    |>.append (named_field "role" c.role)
    |>.append (named_field "roleCommand" c.roleCommand)
    |>.append (named_field "taskId" c.taskId)
    |>.append (named_field "commandId" c.commandId)
    |>.append (named_fieldUnless (!c.background) "background" c.background)
    |>.append (named_field "commandParams" c.params)
    |>.append (named_fieldUnless c.keytabs.isEmpty "kerberosCommandParams" c.keytabs)

instance : Wire.Lawful ExecutionCommand where
  decode_encode c := by
    refine (bind_fields?_object c.named_toFields (by decide)).trans ?_
    simp [ExecutionCommand.toFields, List.lookup_append]

theorem CancelCommand.named_toFields (c : CancelCommand) : Named fieldNames c.toFields :=
  (named_field "hostname" c.hostname).append (named_field "targetTaskId" c.targetTask)
    |>.append (named_fieldUnless c.reason.isEmpty "reason" c.reason)

instance : Wire.Lawful CancelCommand where
  decode_encode c := by
    refine (bind_fields?_object c.named_toFields (by decide)).trans ?_
    simp [CancelCommand.toFields, List.lookup_append]

instance : Wire.Lawful CommandBundle where
  decode_encode b := by
    have hn : Named CommandBundle.fieldNames _ :=
      (named_field "executionCommands" b.executions).append (named_field "cancelCommands" b.cancels)
    refine (bind_fields?_object hn (by decide)).trans ?_
    simp [List.lookup_append]

instance : Wire.Lawful CommandEvent where
  decode_encode e := by
    have hn : Named CommandEvent.fieldNames _ :=
      (named_field "host" e.host).append (named_field "clusters" e.clusters)
    refine (bind_fields?_object hn (by decide)).trans ?_
    simp [List.lookup_append]

/-! ### Settings -/

instance : Wire.Lawful TopologySettings where
  decode_encode s := by
    have hn : Named ["destination"] _ := named_field "destination" s.destination
    refine (bind_fields?_object hn (by decide)).trans ?_
    simp

instance : Wire.Lawful ConfigsSettings where
  decode_encode s := by
    have hn : Named ["destination"] _ := named_field "destination" s.destination
    refine (bind_fields?_object hn (by decide)).trans ?_
    simp

instance : Wire.Lawful PublisherSettings where
  decode_encode s := by
    have hn : Named PublisherSettings.fieldNames _ :=
      (named_field "destination" s.destination).append
        (named_field "unassigned_cluster_id" s.unassignedClusterId)
        |>.append (named_field "custom_command_param" s.customCommandParam)
        |>.append (named_field "trace_commands" s.traceCommands)
    refine (bind_fields?_object hn (by decide)).trans ?_
    simp [List.lookup_append]

instance : Wire.Lawful SecretsSettings where
  decode_encode s := by
    have hn : Named SecretsSettings.fieldNames _ :=
      (named_field "identity_file_name" s.identityFileName).append
        (named_field "data_directory_param" s.dataDirectoryParam)
    refine (bind_fields?_object hn (by decide)).trans ?_
    simp [List.lookup_append]

instance : Wire.Lawful Settings where
  decode_encode s := by
    have hn : Named Settings.fieldNames _ :=
      (named_field "topology" s.topology).append (named_field "configs" s.configs)
        |>.append (named_field "publisher" s.publisher)
        |>.append (named_field "secrets" s.secrets)
    refine (bind_fields?_object hn (by decide)).trans ?_
    simp [List.lookup_append]

end FleetSync
