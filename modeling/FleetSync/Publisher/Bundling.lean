import FleetSync.Publisher.Routing

/-!
Bundling: one event for each host, with the orders of each cluster in a bundle of their own.

Hosts come in ascending order of the text of their id. Within a bundle execution commands and cancel
commands are kept apart, each in the order in which they were given.
-/
namespace FleetSync

namespace CommandBundle

/-- The bundle with one more order at its end. -/
def add (b : CommandBundle) : Order → CommandBundle
  | .execution c => { b with executions := b.executions ++ [c] }
  | .cancel c => { b with cancels := b.cancels ++ [c] }

end CommandBundle

namespace CommandEvent

/-- The event with one more order for a cluster. -/
def add (e : CommandEvent) (cluster : String) (order : Order) : CommandEvent :=
  { e with clusters := e.clusters.insert cluster (((e.clusters.get? cluster).getD {}).add order) }

@[simp] theorem host_add (e : CommandEvent) (cluster : String) (order : Order) :
    (e.add cluster order).host = e.host := rfl

@[simp] theorem get?_clusters_add (e : CommandEvent) (cluster x : String) (order : Order) :
    (e.add cluster order).clusters.get? x =
      if x = cluster then some (((e.clusters.get? cluster).getD {}).add order)
      else e.clusters.get? x :=
  OrdMap.get?_insert ..

end CommandEvent

namespace Routed

/-- The events with one more order. -/
def addTo (events : OrdMap String CommandEvent) (r : Routed) : OrdMap String CommandEvent :=
  let key := Decimal.idText r.host
  let event := (events.get? key).getD { host := r.host, clusters := ∅ }
  events.insert key (event.add r.cluster r.order)

/-- The events of a list of orders, by the text of the id of their host. -/
def bundle (orders : List Routed) : OrdMap String CommandEvent := orders.foldl addTo ∅

end Routed
end FleetSync
