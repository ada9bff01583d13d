import FleetSync.Controller.Basic

/-!
The counters of a controller.
-/
namespace FleetSync.Controller

/-- The holders by name, in the order of their names. -/
def tallies (c : Controller) : List (String × Tally) :=
  [(c.configsHolder.strategy.name, c.configs.tally), (c.genericHolder.strategy.name, c.generic.tally),
    (c.topologyHolder.strategy.name, c.topology.tally)]

/-- A sample of what has been counted at least once. -/
def updateSamples (changed : Bool) (t : String × Tally) : List Sample :=
  let n := if changed then t.2.changed else t.2.unchanged
  if n = 0 then []
  else [⟨[("changed", if changed then "true" else "false"), ("holder", t.1)], n⟩]

/-- Updates by whether they changed anything, and by holder. -/
def updateFamily (c : Controller) : Family where
  name := "holder_updates_total"
  help := "Updates applied to a state holder"
  samples := [false, true].flatMap fun changed => c.tallies.flatMap (updateSamples changed)

/-- Keytab entries given out, by action. -/
def injectionFamily (c : Controller) : Family where
  name := "injected_keytabs_total"
  help := "Keytab entries attached to agent commands"
  samples := c.injected.toList.map fun e => ⟨[("action", e.1)], e.2⟩

/-- Envelopes that the channel took, by kind. -/
def publicationFamily (c : Controller) : Family where
  name := "published_events_total"
  help := "Events handed to the transport"
  samples := c.channel.published.toList.map fun e => ⟨[("kind", e.1)], e.2⟩

/-- All families in the order of their names. -/
def families (c : Controller) : List Family :=
  [c.updateFamily, c.injectionFamily, c.publicationFamily]

end FleetSync.Controller
