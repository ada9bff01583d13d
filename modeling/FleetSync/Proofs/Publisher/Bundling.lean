import FleetSync.Publisher.Bundling
import Mathlib.Data.List.Induction

/-!
Bundling: where the orders of a list are found again.

There is one event for each host that has orders, under the text of its id, and in it one bundle for
each of its clusters, with the orders for that cluster as they come in the list. `Bundled` says so, and
each order that is added keeps it up (`Bundled.step`). Taken apart again, the events give back the
orders, each of them once (`Routed.routed_bundle`).
-/
namespace FleetSync

namespace Order

def execution? : Order → Option ExecutionCommand
  | execution c => some c
  | cancel _ => none

def cancel? : Order → Option CancelCommand
  | execution _ => none
  | cancel c => some c

end Order

/-! ### Bundling -/

namespace CommandBundle

/-- The bundle of some orders. -/
def ofOrders (orders : List Order) : CommandBundle :=
  ⟨orders.filterMap Order.execution?, orders.filterMap Order.cancel?⟩

theorem ofOrders_append (orders : List Order) (o : Order) :
    ofOrders (orders ++ [o]) = (ofOrders orders).add o := by
  cases o <;> simp [ofOrders, add, Order.execution?, Order.cancel?]

end CommandBundle

namespace Routed

/-- The orders for one cluster on one host. -/
def ordersFor (host : HostId) (cluster : String) (orders : List Routed) : List Order :=
  (orders.filter fun r => r.host = host ∧ r.cluster = cluster).map (·.order)

/-- The orders for one cluster on one host in a bundle; no orders make no bundle. -/
def bundleFor (host : HostId) (cluster : String) (orders : List Routed) : Option CommandBundle :=
  if ordersFor host cluster orders = [] then none
  else some (.ofOrders (ordersFor host cluster orders))

theorem bundleFor_eq_some_iff {host : HostId} {cluster : String} {orders : List Routed}
    {b : CommandBundle} : bundleFor host cluster orders = some b ↔
      ordersFor host cluster orders ≠ [] ∧ b = .ofOrders (ordersFor host cluster orders) := by
  rw [bundleFor]
  split
  next h => exact iff_of_false nofun fun hb => hb.1 h
  next h => simp [h, eq_comm]

/-- One more order belongs at the end of the bundle of its own host and cluster. -/
theorem bundleFor_append (host : HostId) (cluster : String) (orders : List Routed) (r : Routed) :
    bundleFor host cluster (orders ++ [r]) =
      if r.host = host ∧ r.cluster = cluster
      then some (((bundleFor host cluster orders).getD {}).add r.order)
      else bundleFor host cluster orders := by
  have hfor : ordersFor host cluster (orders ++ [r]) = ordersFor host cluster orders ++
      if r.host = host ∧ r.cluster = cluster then [r.order] else [] := by
    rw [ordersFor, ordersFor, List.filter_append, List.map_append]
    by_cases h : r.host = host ∧ r.cluster = cluster <;> simp [h]
  rw [bundleFor, bundleFor, hfor]
  split
  next h =>
    rw [if_neg (by simp), CommandBundle.ofOrders_append]
    split
    next hnone => rw [hnone]; rfl
    next => rfl
  next h => rw [List.append_nil]

theorem bundleFor_of_forall_ne {host : HostId} {orders : List Routed}
    (h : ¬ ∃ r ∈ orders, r.host = host) (cluster : String) : bundleFor host cluster orders = none := by
  have hnone : ordersFor host cluster orders = [] := by
    rw [ordersFor, List.map_eq_nil_iff, List.filter_eq_nil_iff]
    intro r hr hfor
    exact h ⟨r, hr, (of_decide_eq_true hfor).1⟩
  rw [bundleFor, if_pos hnone]

end Routed

/-- What bundling orders has to come to. -/
structure Bundled (orders : List Routed) (events : OrdMap String CommandEvent) : Prop where
  /-- An event is kept under the text of the id of its host. -/
  key : ∀ {text e}, events.get? text = some e → text = Decimal.idText e.host
  /-- There is an event for a host if there is an order for it. -/
  hosts : ∀ host, (∃ e, events.get? (Decimal.idText host) = some e) ↔ ∃ r ∈ orders, r.host = host
  /-- The event of a host has the orders for it, by cluster. -/
  clusters : ∀ {text e}, events.get? text = some e →
    ∀ cluster, e.clusters.get? cluster = Routed.bundleFor e.host cluster orders

namespace Bundled

theorem nil : Bundled [] ∅ := ⟨nofun, fun _ => iff_of_false nofun (by simp), nofun⟩

variable {orders : List Routed} {events : OrdMap String CommandEvent}

/-- The event to which an order for a host is added has the orders for that host so far. -/
theorem current (h : Bundled orders events) (host : HostId) :
    let e := (events.get? (Decimal.idText host)).getD { host, clusters := ∅ }
    e.host = host ∧ ∀ cluster, e.clusters.get? cluster = Routed.bundleFor host cluster orders := by
  cases he : events.get? (Decimal.idText host) with
  | none =>
    have hno : ¬ ∃ r ∈ orders, r.host = host := by
      rw [← h.hosts, he]
      exact fun ⟨e, h⟩ => nomatch h
    exact ⟨rfl, fun cluster => (Routed.bundleFor_of_forall_ne hno cluster).symm⟩
  | some e =>
    have hhost : host = e.host := Decimal.idText_inj.1 (h.key he)
    exact ⟨hhost.symm, fun cluster => by rw [hhost]; exact h.clusters he cluster⟩

/-- One more order. -/
theorem step (r : Routed) (h : Bundled orders events) :
    Bundled (orders ++ [r]) (r.addTo events) := by
  -- only the event of the host of `r` is another one than before
  obtain ⟨hhost, hclusters⟩ := h.current r.host
  refine ⟨fun {text e} he => ?_, fun host => ?_, fun {text e} he cluster => ?_⟩
  · rw [Routed.addTo, OrdMap.get?_insert] at he
    split at he
    next htext =>
      cases he
      exact htext.trans (congrArg _ hhost.symm)
    next => exact h.key he
  · simp only [Routed.addTo, OrdMap.get?_insert, Decimal.idText_inj, List.mem_append,
      List.mem_singleton, or_and_right, exists_or, exists_eq_left, ← h.hosts]
    by_cases hr : host = r.host
    · simp [hr]
    · simp [hr, Ne.symm hr]
  · rw [Routed.addTo, OrdMap.get?_insert] at he
    split at he
    next =>
      cases he
      rw [CommandEvent.host_add, CommandEvent.get?_clusters_add, hclusters, hclusters, hhost,
        Routed.bundleFor_append]
      by_cases hc : cluster = r.cluster
      · rw [if_pos hc, if_pos ⟨rfl, hc.symm⟩, hc]
      · rw [if_neg hc, if_neg fun hr => hc hr.2.symm]
    next htext =>
      have hne : r.host ≠ e.host := fun heq => htext ((h.key he).trans (congrArg _ heq.symm))
      rw [Routed.bundleFor_append, if_neg fun hr => hne hr.1]
      exact h.clusters he cluster

end Bundled

/-- Orders are bundled as `Bundled` says. -/
theorem bundled_bundle (orders : List Routed) : Bundled orders (Routed.bundle orders) := by
  induction orders using List.reverseRecOn with
  | nil => exact Bundled.nil
  | append_singleton orders r ih =>
    rw [Routed.bundle, List.foldl_append]
    exact ih.step r

/-! ### Nothing is lost, and nothing comes twice -/

/-- The orders in a bundle, with where they are for. -/
def CommandBundle.routed (b : CommandBundle) (host : HostId) (cluster : String) : List Routed :=
  b.executions.map (fun c => ⟨host, cluster, .execution c⟩) ++
    b.cancels.map (fun c => ⟨host, cluster, .cancel c⟩)

/-- The orders in an event, with where they are for. -/
def CommandEvent.routed (e : CommandEvent) : List Routed :=
  e.clusters.toList.flatMap fun entry => entry.2.routed e.host entry.1

theorem CommandBundle.routed_add (b : CommandBundle) (host : HostId) (cluster : String)
    (o : Order) :
    ((b.add o).routed host cluster).Perm (⟨host, cluster, o⟩ :: b.routed host cluster) := by
  cases o with
  | execution c =>
    simp only [routed, add, List.map_append, List.map_cons, List.map_nil, List.append_assoc]
    exact List.perm_middle
  | cancel c =>
    simp only [routed, add, List.map_append, List.map_cons, List.map_nil, ← List.append_assoc]
    exact List.perm_append_singleton _ _

theorem CommandEvent.routed_add (e : CommandEvent) (cluster : String) (o : Order) :
    (e.add cluster o).routed.Perm (⟨e.host, cluster, o⟩ :: e.routed) := by
  refine OrdMap.flatMap_insert_perm ((CommandBundle.routed_add _ _ _ o).trans (.of_eq ?_))
  cases e.clusters.get? cluster <;> rfl

theorem Routed.routed_addTo {orders : List Routed} {events : OrdMap String CommandEvent}
    (h : Bundled orders events) (r : Routed) :
    ((r.addTo events).values.flatMap CommandEvent.routed).Perm
      (r :: events.values.flatMap CommandEvent.routed) := by
  simp only [OrdMap.values, List.flatMap_map]
  refine OrdMap.flatMap_insert_perm ((CommandEvent.routed_add _ _ _).trans (.of_eq ?_))
  rw [(h.current r.host).1]
  cases events.get? (Decimal.idText r.host) <;> rfl

/-- The events have just the orders that were bundled, each of them once. -/
theorem Routed.routed_bundle (orders : List Routed) :
    ((bundle orders).values.flatMap CommandEvent.routed).Perm orders := by
  induction orders using List.reverseRecOn with
  | nil => exact .nil
  | append_singleton orders r ih =>
    rw [bundle, List.foldl_append]
    refine (routed_addTo (bundled_bundle orders) r).trans ?_
    exact (ih.cons r).trans (List.perm_append_singleton r orders).symm

end FleetSync
