import FleetSync.Controller.Action
import FleetSync.Controller.Counters
import FleetSync.Controller.Description
import FleetSync.Settings.Load
import FleetSync.Proofs.Traversal
import FleetSync.Proofs.Ledger
import FleetSync.Proofs.Json.Tokens
import FleetSync.Proofs.Json.Documents
import FleetSync.Proofs.Wire.Lawful
import FleetSync.Proofs.Wire.Records
import FleetSync.Proofs.Wire.Readable
import FleetSync.Proofs.Wire.RoundTrip
import FleetSync.Proofs.Fingerprint
import FleetSync.Proofs.Topology.Identities
import FleetSync.Proofs.Topology.AgentCopy
import FleetSync.Proofs.Holder.Pointwise
import FleetSync.Proofs.Holder.Outcome
import FleetSync.Proofs.Holder.Calls
import FleetSync.Proofs.Holder.Coherence
import FleetSync.Proofs.Holder.Announcing
import FleetSync.Proofs.Holder.Polling
import FleetSync.Proofs.Holder.Uniqueness
import FleetSync.Proofs.Holder.Deletion
import FleetSync.Proofs.Holder.Following
import FleetSync.Proofs.Holder.Discretion
import FleetSync.Proofs.Holder.Rebuilding
import FleetSync.Proofs.Holder.Hosts
import FleetSync.Proofs.Holder.OnDemand
import FleetSync.Proofs.Holder.Tallying
import FleetSync.Proofs.Holder.Replaying
import FleetSync.Proofs.Holder.Addressing
import FleetSync.Proofs.Holder.Refreshing
import FleetSync.Proofs.Holder.Agreement
import FleetSync.Proofs.Publisher.Routing
import FleetSync.Proofs.Publisher.Enrichment
import FleetSync.Proofs.Publisher.Bundling
import FleetSync.Proofs.Publisher.Grouping
import FleetSync.Proofs.Publisher.Dispatch
import FleetSync.Proofs.Publisher.Counting
import FleetSync.Proofs.Publisher.Keytabs
import FleetSync.Proofs.Controller.Accounting
import FleetSync.Proofs.Topology.Combining
import FleetSync.Proofs.Topology.Merging
import FleetSync.Proofs.Topology.Deleting
import FleetSync.Proofs.Topology.Reporting
import FleetSync.Proofs.Holder.Batching
import FleetSync.Proofs.Holder.Redelivery
import FleetSync.Proofs.Holder.Reordering
import FleetSync.Proofs.Holder.Teardown
import FleetSync.Proofs.Path
import FleetSync.Proofs.Publisher.Containment
import FleetSync.Proofs.Keytab.Placement
import FleetSync.Proofs.Settings.Overlaying
import FleetSync.Proofs.Settings.Resolving
import FleetSync.Proofs.Settings.Reordering
import FleetSync.Proofs.Keytab.Columns
import FleetSync.Proofs.Keytab.Rows
import FleetSync.Proofs.Publisher.Dumps
import FleetSync.Proofs.Publisher.Faults
import FleetSync.Proofs.Registry.History
