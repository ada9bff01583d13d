import FleetSync.Event

/-!
Configurations: what a host is told about the clusters it belongs to.

A snapshot of a host is always replaced as a whole, so there is nothing here but its shape.
-/
namespace FleetSync

/-- Properties by key. -/
abbrev Properties := OrdMap String String

/-- The effective configuration of a cluster on one host: properties by configuration type, and
attributes of properties by type and attribute. -/
structure ClusterConfigs where
  configurations : OrdMap String Properties := ∅
  attributes : OrdMap String (OrdMap String Properties) := ∅
  deriving DecidableEq

/-- The configuration snapshot of one host, by cluster id. -/
structure HostConfigs where
  timestamp : UInt64 := 0
  clusters : OrdMap String ClusterConfigs := ∅
  deriving DecidableEq

namespace ClusterConfigs

/-- The configuration with one more property. -/
def withProperty (c : ClusterConfigs) (type key value : String) : ClusterConfigs :=
  let properties := (c.configurations.get? type).getD ∅
  { c with configurations := c.configurations.insert type (properties.insert key value) }

/-- The fields of the JSON form in order. -/
def fieldNames : List String := ["configurations", "configurationAttributes"]

instance : Wire ClusterConfigs where
  encode c := .object <|
    Json.field "configurations" c.configurations ++
    Json.fieldUnless c.attributes.isEmpty "configurationAttributes" c.attributes
  decode j := do
    let fields ← j.fields? fieldNames
    return {
      configurations := ← fields.defaulted "configurations" ∅
      attributes := ← fields.defaulted "configurationAttributes" ∅ }

end ClusterConfigs

namespace HostConfigs

/-- The snapshot with the configuration of one more cluster. -/
def withCluster (c : HostConfigs) (cluster : String) (configs : ClusterConfigs) : HostConfigs :=
  { c with clusters := c.clusters.insert cluster configs }

/-- The fields of the JSON form in order. -/
def fieldNames : List String := ["timestamp", "clusters"]

instance : Wire HostConfigs where
  encode c := .object <| Json.field "timestamp" c.timestamp ++ Json.field "clusters" c.clusters
  decode j := do
    let fields ← j.fields? fieldNames
    return {
      timestamp := ← fields.defaulted "timestamp" 0
      clusters := ← fields.defaulted "clusters" ∅ }

end HostConfigs
end FleetSync
