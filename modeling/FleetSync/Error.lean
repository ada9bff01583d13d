import FleetSync.Identifier
import FleetSync.Settings.Basic
import FleetSync.Text.Decimal

/-!
What can go wrong, by cause, and how it is put into words.
-/
namespace FleetSync

/-- Causes of failure. -/
inductive Fault where
  /-- The source cannot produce a scope right now. -/
  | scopeUnavailable (scope : ScopeKey) (reason : String)
  /-- A change names a scope that is not held. -/
  | scopeNotFound (scope : ScopeKey)
  /-- A scope key is not the number that is needed. -/
  | invalidScope (scope : ScopeKey)
  | unknownCluster (name : String)
  | unknownTask (task : TaskId)
  | unknownHost (host : HostId)
  /-- Secret material cannot be read from disk. -/
  | unreadable (path : String)
  /-- A row of the identity file is not a record. -/
  | malformedRecord (path : String) (line : Nat)
  /-- The transport does not take an event. -/
  | transport (text : String)
  | invalidSettings (fault : SettingsFault)
  deriving DecidableEq

namespace Fault

def message : Fault → String
  | scopeUnavailable scope reason => "Scope " ++ scope ++ " is unavailable: " ++ reason
  | scopeNotFound scope => "Scope " ++ scope ++ " not found"
  | invalidScope scope => "Invalid scope key: " ++ scope
  | unknownCluster name => "Cluster " ++ name ++ " not found"
  | unknownTask task => "No stage found owning task " ++ String.ofList (Decimal.ofNat task.toNat)
  | unknownHost host => "Host " ++ Decimal.idText host ++ " not found"
  | unreadable path => "Could not inject keytab into command: I/O failure at " ++ path
  | malformedRecord path line =>
    "Could not inject keytab into command: Malformed identity record at " ++ path ++ ":" ++
      String.ofList (Decimal.ofNat line)
  | transport text => "Transport error: " ++ text
  | invalidSettings fault => "Invalid config: " ++ fault.message

end Fault
end FleetSync
