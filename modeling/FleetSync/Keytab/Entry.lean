import FleetSync.Json.Record

/-!
Keytab identities and the entries that commands carry.

A record of the identity table says which keytab belongs to which host and how an agent installs it.
An entry for removal repeats only the identity; an entry for installation repeats the whole record
and carries the content of the keytab.
-/
namespace FleetSync

/-- One row of an identity table. -/
structure IdentityRecord where
  hostname : String
  service : Option String := none
  component : Option String := none
  principal : Option String := none
  path : Option String := none
  ownerName : Option String := none
  ownerAccess : Option String := none
  groupName : Option String := none
  groupAccess : Option String := none
  deriving DecidableEq

/-- What an agent is told about one keytab. -/
structure KeytabEntry extends IdentityRecord where
  contentBase64 : Option String := none
  deriving DecidableEq

namespace IdentityRecord

/-- The columns of an identity table, which are also the fields of the JSON form in order. -/
def fieldNames : List String :=
  ["hostname", "service", "component", "principal", "keytab_file_path", "keytab_file_owner_name",
    "keytab_file_owner_access", "keytab_file_group_name", "keytab_file_group_access"]

def ofFields? (fields : Json.Fields) : Option IdentityRecord := do
  return {
    hostname := ← fields.required "hostname"
    service := ← fields.optional "service"
    component := ← fields.optional "component"
    principal := ← fields.optional "principal"
    path := ← fields.optional "keytab_file_path"
    ownerName := ← fields.optional "keytab_file_owner_name"
    ownerAccess := ← fields.optional "keytab_file_owner_access"
    groupName := ← fields.optional "keytab_file_group_name"
    groupAccess := ← fields.optional "keytab_file_group_access" }

/-- A record is written with all its fields. -/
instance : Wire IdentityRecord where
  encode r := .object <|
    Json.field "hostname" r.hostname ++
    Json.field "service" r.service ++
    Json.field "component" r.component ++
    Json.field "principal" r.principal ++
    Json.field "keytab_file_path" r.path ++
    Json.field "keytab_file_owner_name" r.ownerName ++
    Json.field "keytab_file_owner_access" r.ownerAccess ++
    Json.field "keytab_file_group_name" r.groupName ++
    Json.field "keytab_file_group_access" r.groupAccess
  decode j := (j.fields? fieldNames).bind ofFields?

end IdentityRecord

namespace KeytabEntry

/-- The entry that tells an agent to delete a keytab. -/
def forRemoval (r : IdentityRecord) : KeytabEntry where
  hostname := r.hostname
  service := r.service
  component := r.component
  principal := r.principal
  path := r.path

/-- The entry that hands a keytab to an agent. -/
def withContent (r : IdentityRecord) (contentBase64 : String) : KeytabEntry :=
  { toIdentityRecord := r, contentBase64 := some contentBase64 }

/-- The fields of the JSON form in order. -/
def fieldNames : List String := IdentityRecord.fieldNames ++ ["keytab_content_base64"]

/-- An entry is written without the fields that have no value. -/
instance : Wire KeytabEntry where
  encode e := .object <|
    Json.field "hostname" e.hostname ++
    Json.fieldOf "service" e.service ++
    Json.fieldOf "component" e.component ++
    Json.fieldOf "principal" e.principal ++
    Json.fieldOf "keytab_file_path" e.path ++
    Json.fieldOf "keytab_file_owner_name" e.ownerName ++
    Json.fieldOf "keytab_file_owner_access" e.ownerAccess ++
    Json.fieldOf "keytab_file_group_name" e.groupName ++
    Json.fieldOf "keytab_file_group_access" e.groupAccess ++
    Json.fieldOf "keytab_content_base64" e.contentBase64
  decode j := do
    let fields ← j.fields? fieldNames
    return {
      toIdentityRecord := ← IdentityRecord.ofFields? fields
      contentBase64 := ← fields.optional "keytab_content_base64" }

end KeytabEntry
end FleetSync
