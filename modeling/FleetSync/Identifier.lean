/-!
Ids and keys.

Hosts and clusters are numbered by signed, tasks by unsigned 64-bit integers. A scope is what a
holder keeps one snapshot for, a cluster or a host; its key is the decimal text of that id, though a
key received from outside may be any text.
-/
namespace FleetSync

abbrev HostId := Int64

abbrev ClusterId := Int64

abbrev TaskId := UInt64

abbrev ScopeKey := String

/-- A fingerprint is a hexadecimal digest, or empty for an empty state. -/
abbrev Fingerprint := String

end FleetSync
