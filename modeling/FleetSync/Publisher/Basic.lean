import FleetSync.Keytab.Store
import FleetSync.Publisher.Bundling
import FleetSync.Publisher.KeytabAction
import FleetSync.Text.Base64
import FleetSync.Transport.Basic

/-!
The command publisher.

Dispatching goes through three phases, each of them over all commands: every command is routed, then
every keytab command is given its entries, and only then is one event sent to each host. A failure
in one of the first two phases therefore leaves all hosts untouched. Dumps of the commands show them
as they were given, before anything is filled in.
-/
namespace FleetSync

structure Publisher (ω : Type) where
  settings : PublisherSettings
  secrets : SecretsSettings
  transport : Transport ω

/-- What dispatching works on: the command dumps, the data directories whose identity file was
opened, the keytab files that were tried, the entries given out by action, the envelopes sent, and
the state `ω` of the transport. -/
structure Desk (ω : Type) where
  traced : List String := []
  opened : List String := []
  tried : List String := []
  injected : OrdMap String Nat := ∅
  sent : List Envelope := []
  world : ω

/-- The desk with more entries given out for an action. -/
def Desk.count {ω : Type} (desk : Desk ω) (action : KeytabAction) (n : Nat) : Desk ω :=
  let before := (desk.injected.get? action.name).getD 0
  { desk with injected := desk.injected.insert action.name (before + n) }

namespace Publisher
variable {ω : Type}

/-- Dumps a command, if that is asked for. -/
def trace (p : Publisher ω) (c : AgentCommand) : Op (Desk ω) Unit := fun desk =>
  .ok () (if p.settings.traceCommands then { desk with traced := desk.traced ++ [Wire.toText c] }
    else desk)

/-- Routes every command, after dumping it. -/
def routeAll (p : Publisher ω) (lookups : Lookups) (commands : List (HostId × AgentCommand)) :
    Op (Desk ω) (List Routed) :=
  commands.mapM fun (host, command) => do
    p.trace command
    Op.ofExcept (lookups.route p.settings.unassignedClusterId host command)

/-- Opens the identity file of a data directory. -/
def openRecords (store : SecretStore) (directory : String) :
    Op (Desk ω) (List (Except Fault IdentityRecord)) := do
  modify fun desk => { desk with opened := desk.opened ++ [directory] }
  Op.ofExcept (store.records directory)

/-- Reads a keytab file. -/
def readKeytab (store : SecretStore) (location : String) : Op (Desk ω) (Option (List UInt8)) := do
  modify fun desk => { desk with tried := desk.tried ++ [location] }
  Op.ofExcept (store.keytab location)

/-- The entry that a record calls for, if any. -/
def entryOf (store : SecretStore) (directory : String) (action : KeytabAction) (r : IdentityRecord) :
    Op (Desk ω) (Option KeytabEntry) :=
  match action with
  | .remove => return some (.forRemoval r)
  | .set =>
    match r.path with
    | none => return none
    | some path => do
      let content ← readKeytab store (keytabLocation directory r.hostname path)
      return content.map fun bytes => .withContent r (Base64.encodeText bytes)

/-- The entry that the next record calls for. A record of another host is passed over. -/
def entryFor (store : SecretStore) (directory : String) (action : KeytabAction) (host : String)
    (next : Except Fault IdentityRecord) : Op (Desk ω) (Option KeytabEntry) := do
  let record ← Op.ofExcept next
  if Text.sameIgnoringCase record.hostname host then entryOf store directory action record
  else return none

/-- The entries for one host among records, in their order. The first record that cannot be used
fails them all. -/
def entriesFor (store : SecretStore) (directory : String) (action : KeytabAction) (host : String)
    (records : List (Except Fault IdentityRecord)) : Op (Desk ω) (List KeytabEntry) := do
  let found ← records.mapM (entryFor store directory action host)
  return found.filterMap id

/-- Takes the entries for a host from a data directory, and counts them. -/
def takeEntries (store : SecretStore) (directory : String) (action : KeytabAction) (host : String) :
    Op (Desk ω) (List KeytabEntry) := do
  let records ← openRecords store directory
  let entries ← entriesFor store directory action host records
  modify fun desk => desk.count action entries.length
  return entries

/-- Adds the keytab entries for a host to a command, in place. A command without a data directory
stays as it is. -/
def injectSecret (p : Publisher ω) (store : SecretStore) (action : KeytabAction) (host : String) :
    Op (Desk ω × ExecutionCommand) Unit := do
  let (_, c) ← get
  match c.param? p.secrets.dataDirectoryParam with
  | none => return
  | some directory => do
    let entries ← Op.focus Prod.fst (fun desk s => (desk, s.2))
      (takeEntries store directory action host)
    modify fun (desk, c) => (desk, { c with keytabs := c.keytabs ++ entries })

/-- The keytab action that a command asks for. -/
def keytabAction? (p : Publisher ω) (c : ExecutionCommand) : Option KeytabAction :=
  (c.param? p.settings.customCommandParam).bind KeytabAction.ofCustomCommand?

/-- Gives a keytab command its entries; other commands stay as they are. -/
def enrich (p : Publisher ω) (lookups : Lookups) (store : SecretStore) (r : Routed) :
    Op (Desk ω) Routed := do
  match r.order with
  | .cancel _ => return r
  | .execution c =>
    match p.keytabAction? c with
    | none => return r
    | some action =>
      match lookups.hostName? r.host with
      | none => throw (.unknownHost r.host)
      | some host => do
        let c ← Op.onItem (p.injectSecret store action host) c
        return { r with order := .execution c }

/-- The envelope for the commands of one host. -/
def envelope (p : Publisher ω) (e : CommandEvent) : Envelope :=
  ⟨.host e.host p.settings.destination, .commands e⟩

/-- Sends the commands of one host. -/
def send (p : Publisher ω) (e : CommandEvent) : Op (Desk ω) Unit := fun desk =>
  match p.transport.send (p.envelope e) desk.world with
  | .ok () world => .ok () { desk with world, sent := desk.sent ++ [p.envelope e] }
  | .error f world => .error f { desk with world }

/-- Sends each host its event. Returns how many there are. -/
def sendAll (p : Publisher ω) (events : OrdMap String CommandEvent) : Op (Desk ω) Nat := do
  events.values.forM p.send
  return events.size

/-- Dispatches commands to hosts. Returns how many hosts were sent an event. -/
def dispatch (p : Publisher ω) (lookups : Lookups) (store : SecretStore)
    (commands : List (HostId × AgentCommand)) : Op (Desk ω) Nat := do
  let routed ← p.routeAll lookups commands
  let enriched ← routed.mapM (p.enrich lookups store)
  p.sendAll (Routed.bundle enriched)

end Publisher
end FleetSync
