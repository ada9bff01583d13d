import FleetSync.Proofs.Publisher.Bundling
import FleetSync.Proofs.Publisher.Enrichment
import FleetSync.Proofs.Publisher.Routing

/-!
Commands, grouped by host and by cluster.

`Grouped` says of a list of events that it is what a list of commands comes to: one event for each
host, in ascending order of the texts of their ids, and in it for each cluster the executions and the
cancels for that cluster, in the order of the commands. If each command goes out as an order
(`Publisher.Goes`), bundling the orders groups the commands (`grouped_bundle`). The events are
determined by the commands for each cluster on each host, so how commands for different places are
interleaved leaves no trace in them (`Grouped.unique`).
-/
namespace FleetSync

variable {ω : Type}

/-- Commands for hosts. -/
abbrev Commands := List (HostId × AgentCommand)

namespace Lookups

/-- The commands for one cluster on one host, in their order. -/
def commandsFor (l : Lookups) (unassigned : String) (host : HostId) (cluster : String)
    (commands : Commands) : List AgentCommand :=
  (commands.filter fun c => c.1 = host ∧ l.key? unassigned c.2 = some cluster).map (·.2)

/-- The executions for one cluster on one host, as they go out but for keytab entries. -/
def executionsFor (l : Lookups) (unassigned : String) (host : HostId) (cluster : String)
    (commands : Commands) : List ExecutionCommand :=
  (l.commandsFor unassigned host cluster commands).filterMap fun a => a.execution? cluster

/-- The cancels for one cluster on one host. -/
def cancelsFor (l : Lookups) (unassigned : String) (host : HostId) (cluster : String)
    (commands : Commands) : List CancelCommand :=
  (l.commandsFor unassigned host cluster commands).filterMap AgentCommand.cancel?

end Lookups

namespace Publisher

/-- One execution command is another for a host, given its keytab entries. -/
def Enriched (p : Publisher ω) (lookups : Lookups) (store : SecretStore) (host : HostId)
    (c c' : ExecutionCommand) : Prop :=
  ∃ entries, p.entriesGiven lookups store host c = .ok entries ∧
    c' = { c with keytabs := c.keytabs ++ entries }

/-- What a command for a cluster on a host goes out as. -/
inductive Becomes (p : Publisher ω) (lookups : Lookups) (store : SecretStore) (host : HostId)
    (cluster : String) : AgentCommand → Order → Prop
  | execution {a : AgentCommand} {c c' : ExecutionCommand} (ha : a.execution? cluster = some c)
      (he : p.Enriched lookups store host c c') :
      Becomes p lookups store host cluster a (.execution c')
  | cancel {c : CancelCommand} : Becomes p lookups store host cluster (.cancel c) (.cancel c)

/-- An order is what a command for a host goes out as, to the cluster that the command belongs to. -/
structure Goes (p : Publisher ω) (lookups : Lookups) (store : SecretStore)
    (command : HostId × AgentCommand) (r : Routed) : Prop where
  host : r.host = command.1
  cluster : lookups.key? p.settings.unassignedClusterId command.2 = some r.cluster
  order : p.Becomes lookups store command.1 r.cluster command.2 r.order

/-- An event has the commands for its host, by cluster. -/
structure Carries (p : Publisher ω) (lookups : Lookups) (store : SecretStore) (commands : Commands)
    (e : CommandEvent) : Prop where
  /-- The clusters are those that the commands for the host belong to. -/
  clusters : ∀ k, (∃ b, e.clusters.get? k = some b) ↔
    ∃ a, (e.host, a) ∈ commands ∧ lookups.key? p.settings.unassignedClusterId a = some k
  /-- The executions for a cluster are there in their order, with their keytab entries. -/
  executions : ∀ {k b}, e.clusters.get? k = some b →
    List.Forall₂ (p.Enriched lookups store e.host)
      (lookups.executionsFor p.settings.unassignedClusterId e.host k commands) b.executions
  /-- The cancels for a cluster are there in their order. -/
  cancels : ∀ {k b}, e.clusters.get? k = some b →
    b.cancels = lookups.cancelsFor p.settings.unassignedClusterId e.host k commands

/-- What a list of commands comes to. -/
structure Grouped (p : Publisher ω) (lookups : Lookups) (store : SecretStore) (commands : Commands)
    (events : List CommandEvent) : Prop where
  /-- There is one event for a host, and hosts come in ascending order of the texts of their ids, so
  that host 10 comes before host 9. -/
  ascending : events.Pairwise fun d e => Decimal.idText d.host < Decimal.idText e.host
  /-- There is an event for a host if there is a command for it. -/
  hosts : ∀ host, (∃ e ∈ events, e.host = host) ↔ ∃ a, (host, a) ∈ commands
  carries : ∀ e ∈ events, p.Carries lookups store commands e

/-- Why a command cannot be given its entries, if it is one that is given any. -/
def Unserved (p : Publisher ω) (lookups : Lookups) (store : SecretStore)
    (command : HostId × AgentCommand) (f : Fault) : Prop :=
  ∃ c, command.2.body? = some c ∧ p.Unenriched lookups store command.1 c f

variable {p : Publisher ω} {lookups : Lookups} {store : SecretStore} {commands : Commands}

/-! ### One command -/

section
variable {host : HostId} {cluster : String} {a : AgentCommand}

/-- A command that has been routed goes on as what it becomes. -/
theorem becomes_of_enrichment {r : Routed}
    (h : p.enrichment lookups store ⟨host, cluster, a.orderFor cluster⟩ = .ok r) :
    r.host = host ∧ r.cluster = cluster ∧ p.Becomes lookups store host cluster a r.order := by
  cases a with
  | execution c =>
    obtain ⟨entries, he, rfl⟩ := map_eq_ok_iff.1 h
    exact ⟨rfl, rfl, .execution rfl ⟨entries, he, rfl⟩⟩
  | background c =>
    obtain ⟨entries, he, rfl⟩ := map_eq_ok_iff.1 h
    exact ⟨rfl, rfl, .execution rfl ⟨entries, he, rfl⟩⟩
  | cancel c =>
    cases h
    exact ⟨rfl, rfl, .cancel⟩

/-- A command that has been routed is not enriched just if it cannot be given its entries: being told
the cluster does not change what it is given. -/
theorem enrichment_eq_error_iff {f : Fault} :
    p.enrichment lookups store ⟨host, cluster, a.orderFor cluster⟩ = .error f ↔
      p.Unserved lookups store (host, a) f := by
  have hbody : ∀ {c}, a.body? = some c → (p.entriesGiven lookups store host c = .error f ↔
      p.Unserved lookups store (host, a) f) := fun {c} hc => by
    rw [entriesGiven_eq_error_iff]
    simp only [Unserved, hc, Option.some.injEq, exists_eq_left']
  cases a with
  | execution c =>
    rw [← hbody rfl]
    exact map_eq_error_iff
  | background c =>
    rw [← hbody rfl]
    exact map_eq_error_iff
  | cancel c => exact iff_of_false nofun fun ⟨_, hc, _⟩ => nomatch hc

end

/-! ### Commands and their orders -/

section Orders
variable {host : HostId} {cluster : String} {actions : List AgentCommand} {orders : List Order}

theorem executions_of_becomes
    (h : List.Forall₂ (p.Becomes lookups store host cluster) actions orders) :
    List.Forall₂ (p.Enriched lookups store host)
      (actions.filterMap fun a => a.execution? cluster) (orders.filterMap Order.execution?) := by
  induction h with
  | nil => exact .nil
  | cons hx _ ih =>
    cases hx with
    | execution ha he =>
      rw [List.filterMap_cons_some ha]
      exact .cons he ih
    | cancel => exact ih

theorem cancels_of_becomes
    (h : List.Forall₂ (p.Becomes lookups store host cluster) actions orders) :
    orders.filterMap Order.cancel? = actions.filterMap AgentCommand.cancel? := by
  induction h with
  | nil => rfl
  | @cons a _ _ _ hx _ ih =>
    cases hx with
    | execution ha _ =>
      cases a with
      | execution => exact ih
      | background => exact ih
      | cancel => cases ha
    | cancel => exact congrArg _ ih

end Orders

section Bundles
variable {orders : List Routed}

/-- The orders for a cluster on a host are those of the commands for it. -/
theorem ordersFor_of_goes (h : List.Forall₂ (p.Goes lookups store) commands orders) (host : HostId)
    (cluster : String) :
    List.Forall₂ (p.Becomes lookups store host cluster)
      (lookups.commandsFor p.settings.unassignedClusterId host cluster commands)
      (Routed.ordersFor host cluster orders) := by
  induction h with
  | nil => exact .nil
  | @cons c r _ _ hx _ ih =>
    have hiff : (c.1 = host ∧ lookups.key? p.settings.unassignedClusterId c.2 = some cluster) ↔
        (r.host = host ∧ r.cluster = cluster) := by
      rw [hx.host, hx.cluster, Option.some.injEq]
    simp only [Lookups.commandsFor, Routed.ordersFor, List.filter_cons, hiff, decide_eq_true_eq]
    split
    next hr =>
      obtain ⟨rfl, rfl⟩ := hr
      refine .cons ?_ ih
      rw [hx.host]
      exact hx.order
    next => exact ih

/-- There are orders for the hosts for which there are commands. -/
theorem hosts_of_goes (h : List.Forall₂ (p.Goes lookups store) commands orders) (host : HostId) :
    (∃ r ∈ orders, r.host = host) ↔ ∃ a, (host, a) ∈ commands := by
  induction h with
  | nil => simp
  | @cons c r _ _ hx _ ih =>
    simp only [List.mem_cons, or_and_right, exists_or, exists_eq_left, ih, hx.host]
    refine or_congr_left ⟨fun hc => ⟨c.2, ?_⟩, fun ⟨a, ha⟩ => ?_⟩
    · rw [← hc]
    · rw [← ha]

/-- A cluster has orders on a host if a command for the host belongs to it. -/
theorem commandsFor_ne_nil {host : HostId} {k : String} :
    lookups.commandsFor p.settings.unassignedClusterId host k commands ≠ [] ↔
      ∃ a, (host, a) ∈ commands ∧ lookups.key? p.settings.unassignedClusterId a = some k := by
  rw [Lookups.commandsFor, Ne, List.map_eq_nil_iff, List.filter_eq_nil_iff]
  simp only [decide_eq_true_eq, Prod.forall, not_forall, not_not]
  constructor
  · rintro ⟨_, a, hm, rfl, hk⟩
    exact ⟨a, hm, hk⟩
  · rintro ⟨a, hm, hk⟩
    exact ⟨_, a, hm, rfl, hk⟩

/-- The event for the host of some orders has the commands that went out as these. -/
theorem carries_of_clusters (h : List.Forall₂ (p.Goes lookups store) commands orders)
    {e : CommandEvent} (hc : ∀ k, e.clusters.get? k = Routed.bundleFor e.host k orders) :
    p.Carries lookups store commands e := by
  have hfor := ordersFor_of_goes h e.host
  refine ⟨fun k => ?_, fun {k b} hb => ?_, fun {k b} hb => ?_⟩
  · simp only [hc, Routed.bundleFor_eq_some_iff, exists_and_left, exists_eq, and_true]
    rw [← commandsFor_ne_nil, ← List.length_pos_iff, ← List.length_pos_iff, (hfor k).length_eq]
  · obtain ⟨-, rfl⟩ := Routed.bundleFor_eq_some_iff.1 ((hc k).symm.trans hb)
    exact executions_of_becomes (hfor k)
  · obtain ⟨-, rfl⟩ := Routed.bundleFor_eq_some_iff.1 ((hc k).symm.trans hb)
    exact cancels_of_becomes (hfor k)

/-- Bundling the orders for commands groups the commands. -/
theorem grouped_bundle (h : List.Forall₂ (p.Goes lookups store) commands orders) :
    p.Grouped lookups store commands (Routed.bundle orders).values := by
  have hb := bundled_bundle orders
  refine ⟨?_, fun host => ?_, fun e he => ?_⟩
  · refine List.pairwise_map.2 ((Routed.bundle orders).ascending.imp_of_mem ?_)
    intro d e hd he hlt
    rwa [hb.key ((OrdMap.get?_eq_some_iff _ _ _).2 hd), hb.key ((OrdMap.get?_eq_some_iff _ _ _).2 he)]
      at hlt
  · rw [← hosts_of_goes h, ← hb.hosts]
    constructor
    · rintro ⟨e, he, rfl⟩
      obtain ⟨text, he⟩ := OrdMap.mem_values_iff.1 he
      exact ⟨e, hb.key he ▸ he⟩
    · rintro ⟨e, he⟩
      exact ⟨e, OrdMap.mem_values_iff.2 ⟨_, he⟩, (Decimal.idText_inj.1 (hb.key he)).symm⟩
  · obtain ⟨text, he⟩ := OrdMap.mem_values_iff.1 he
    exact carries_of_clusters h (hb.clusters he)

end Bundles

/-! ### What the commands determine -/

/-- The same commands in another order, which for no cluster on no host changes the order of the
executions or of the cancels. -/
structure Regrouped (p : Publisher ω) (lookups : Lookups) (commands commands' : Commands) :
    Prop where
  perm : commands.Perm commands'
  executions : ∀ host k, lookups.executionsFor p.settings.unassignedClusterId host k commands =
    lookups.executionsFor p.settings.unassignedClusterId host k commands'
  cancels : ∀ host k, lookups.cancelsFor p.settings.unassignedClusterId host k commands =
    lookups.cancelsFor p.settings.unassignedClusterId host k commands'

namespace Regrouped
variable {commands' : Commands}

theorem symm (h : p.Regrouped lookups commands commands') :
    p.Regrouped lookups commands' commands :=
  ⟨h.perm.symm, fun host k => (h.executions host k).symm, fun host k => (h.cancels host k).symm⟩

/-- Commands that are interleaved differently, with those for each host in the same order. -/
theorem of_filter_eq
    (h : ∀ host, (commands.filter fun c => c.1 = host) = commands'.filter fun c => c.1 = host) :
    p.Regrouped lookups commands commands' := by
  have hfor : ∀ host k, lookups.commandsFor p.settings.unassignedClusterId host k commands =
      lookups.commandsFor p.settings.unassignedClusterId host k commands' := by
    intro host k
    have hown : ∀ l : Commands, l.filter (fun c => decide (c.1 = host ∧
        lookups.key? p.settings.unassignedClusterId c.2 = some k)) =
        (l.filter fun c => c.1 = host).filter fun c =>
          decide (lookups.key? p.settings.unassignedClusterId c.2 = some k) := by
      intro l
      rw [List.filter_filter]
      exact List.filter_congr fun c _ => by rw [Bool.decide_and, Bool.and_comm]
    rw [Lookups.commandsFor, Lookups.commandsFor, hown, hown, h]
  refine ⟨List.perm_iff_count.2 fun c => ?_, fun host k => ?_, fun host k => ?_⟩
  · have hcount : ∀ l : Commands, (l.filter fun d => d.1 = c.1).count c = l.count c :=
      fun l => List.count_filter (decide_eq_true rfl)
    rw [← hcount commands, h, hcount]
  · rw [Lookups.executionsFor, Lookups.executionsFor, hfor]
  · rw [Lookups.cancelsFor, Lookups.cancelsFor, hfor]

end Regrouped

/-- No bundle is empty. -/
theorem Carries.nonempty {e : CommandEvent} (h : p.Carries lookups store commands e) {k : String}
    {b : CommandBundle} (hb : e.clusters.get? k = some b) : b.executions ≠ [] ∨ b.cancels ≠ [] := by
  have hne := commandsFor_ne_nil.2 ((h.clusters k).1 ⟨b, hb⟩)
  obtain ⟨a, ha⟩ := List.exists_mem_of_ne_nil _ hne
  have hexec : ∀ c, a.execution? k = some c → b.executions ≠ [] := by
    rintro c hc hnil
    have hm := List.mem_filterMap.2 ⟨a, ha, hc⟩
    have hnone := List.forall₂_nil_right_iff.1 (hnil ▸ h.executions hb)
    rw [Lookups.executionsFor] at hnone
    exact List.not_mem_nil (hnone ▸ hm)
  cases a with
  | execution c => exact .inl (hexec _ rfl)
  | background c => exact .inl (hexec _ rfl)
  | cancel c =>
    refine .inr fun hnil => ?_
    have hm : c ∈ lookups.cancelsFor p.settings.unassignedClusterId e.host k commands :=
      List.mem_filterMap.2 ⟨_, ha, rfl⟩
    rw [← h.cancels hb, hnil] at hm
    exact List.not_mem_nil hm

/-- Execution commands with their entries are determined by those without. -/
theorem enriched_unique {host : HostId} :
    Relator.RightUnique (p.Enriched lookups store host) := by
  rintro c _ _ ⟨entries, he, rfl⟩ ⟨entries', he', rfl⟩
  rw [Except.ok.inj (he.symm.trans he')]

/-- The event for a host is determined by the commands for each of its clusters. -/
theorem Carries.unique {commands' : Commands} (hre : p.Regrouped lookups commands commands')
    {e e' : CommandEvent} (h : p.Carries lookups store commands e)
    (h' : p.Carries lookups store commands' e') (hhost : e.host = e'.host) : e = e' := by
  obtain ⟨host, clusters⟩ := e
  obtain ⟨host', clusters'⟩ := e'
  obtain rfl : host = host' := hhost
  have hiff : ∀ k, (∃ b, clusters.get? k = some b) ↔ ∃ b, clusters'.get? k = some b := fun k => by
    rw [h.clusters k, h'.clusters k]
    simp only [hre.perm.mem_iff]
  congr 1
  refine OrdMap.ext_get? fun k => ?_
  cases hb : clusters.get? k with
  | none =>
    cases hb' : clusters'.get? k with
    | none => rfl
    | some b' =>
      obtain ⟨b, hb₂⟩ := (hiff k).2 ⟨b', hb'⟩
      exact nomatch hb.symm.trans hb₂
  | some b =>
    obtain ⟨b', hb'⟩ := (hiff k).1 ⟨b, hb⟩
    have hexec := h'.executions hb'
    rw [← hre.executions] at hexec
    obtain ⟨executions, cancels⟩ := b
    obtain ⟨executions', cancels'⟩ := b'
    have hx : executions = executions' :=
      List.right_unique_forall₂' enriched_unique (h.executions hb) hexec
    have hc : cancels = cancels' :=
      (h.cancels hb).trans ((hre.cancels host k).trans (h'.cancels hb').symm)
    rw [hb', hx, hc]

theorem Grouped.nodup {events : List CommandEvent}
    (h : p.Grouped lookups store commands events) : events.Nodup := by
  refine h.ascending.imp fun {d e} hlt heq => ?_
  rw [heq] at hlt
  exact String.lt_irrefl _ hlt

theorem Grouped.mem_of_mem {commands' : Commands} (hre : p.Regrouped lookups commands commands')
    {events events' : List CommandEvent} (h : p.Grouped lookups store commands events)
    (h' : p.Grouped lookups store commands' events') {e : CommandEvent} (he : e ∈ events) :
    e ∈ events' := by
  obtain ⟨a, ha⟩ := (h.hosts e.host).1 ⟨e, he, rfl⟩
  obtain ⟨e', he', hhost⟩ := (h'.hosts e.host).2 ⟨a, hre.perm.mem_iff.1 ha⟩
  obtain rfl := (h.carries e he).unique hre (h'.carries e' he') hhost.symm
  exact he'

/-- The events are determined by the commands for each cluster on each host. -/
theorem Grouped.unique {commands' : Commands} (hre : p.Regrouped lookups commands commands')
    {events events' : List CommandEvent} (h : p.Grouped lookups store commands events)
    (h' : p.Grouped lookups store commands' events') : events = events' := by
  have hperm : events.Perm events' :=
    (List.perm_ext_iff_of_nodup h.nodup h'.nodup).2 fun e =>
      ⟨h.mem_of_mem hre h', h'.mem_of_mem hre.symm h⟩
  refine hperm.eq_of_pairwise ?_ h.ascending h'.ascending
  intro d e _ _ hlt hgt
  exact absurd (String.lt_trans hlt hgt) (String.lt_irrefl _)

end Publisher
end FleetSync
