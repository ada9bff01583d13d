import FleetSync.Proofs.Holder.Calls
import FleetSync.Proofs.Holder.Outcome

/-!
When a held cluster goes.

A scope that was held is gone after an event exactly if the event is a deletion that has a payload for it
and finds it empty (`deletion_boundary`). So no deletion drops the cluster that it empties, and none that
finds something left drops anything. What the payload names does not count, though: the cluster goes at the
first deletion after it was emptied, be it for the whole scope or for a host that has been deleted before
(`redelivered_deletion_drops`).
-/
namespace FleetSync

/-- The event is a deletion with a payload for a scope, and finds the topology held for it empty. -/
def Event.FindsEmpty (e : Event Topology) (scope : ScopeKey) (t : Topology) : Prop :=
  e.type = .delete ∧ t.isEmpty = true ∧ ∃ d, e.scopes.get? scope = some d

/-- The payload of the event for a scope names neither components nor hosts, and so the whole scope. -/
def Event.NamesWhole (e : Event Topology) (scope : ScopeKey) : Prop :=
  ∃ d, e.scopes.get? scope = some d ∧ d.isEmpty = true

/-- A scope that was held is gone after an event exactly if a deletion found it empty. -/
theorem ScopeOutcome.gone_iff {type : EventType} {payload after : Option Topology} {t : Topology}
    (h : ScopeOutcome type payload (some t) after) :
    after = none ↔ type = .delete ∧ t.isEmpty = true ∧ ∃ d, payload = some d := by
  cases h with
  | untouched => simp
  | dropped d _ htype hempty => exact iff_of_true rfl ⟨htype, hempty, d, rfl⟩
  | updated d _ hnot => exact iff_of_false nofun fun h => hnot ⟨h.1, h.2.1⟩

namespace Holder
variable {ω : Type} {h : Holder ω Topology}

/-- A call that applies an event and succeeds leaves what the event makes of what was held. -/
theorem applied_of_ok {e : Event Topology} {site after : Site ω Topology} {changed : Bool}
    (hok : (h.apply e).on site = (.ok changed, after) ∨ (h.update e).on site = (.ok changed, after)) :
    ∃ applied, site.held.apply h.strategy e = .ok (after.held, applied) := by
  have hleaves : after.held = (Call.apply e).leaves h site := by
    rcases hok with hok | hok
    · rw [← held_apply, hok]
    · exact (congrArg (·.2.held) hok).symm.trans (h.held_update e site)
  rw [Call.leaves] at hleaves
  cases happly : site.held.apply h.strategy e with
  | ok r =>
    rw [happly] at hleaves
    exact ⟨r.2, by rw [hleaves]⟩
  | error f =>
    have hfail : (h.apply e).on site = (.error f, site) := by rw [on_apply, happly]
    rcases hok with hok | hok
    · cases hfail.symm.trans hok
    · cases (Op.on_bind_of_error hfail).symm.trans hok

/-- A held cluster is gone after a call that applied an event, announced or not, exactly if the event is a
deletion that has a payload for it and found it empty.

That it goes exactly if the payload also names the whole scope holds where each deletion that finds a
cluster empty does so. -/
theorem deletion_boundary (h : Holder ω Topology) {settings : TopologySettings}
    (hstrategy : h.strategy = .topology settings) (e : Event Topology) (site after : Site ω Topology)
    (changed : Bool)
    (hok : (h.apply e).on site = (.ok changed, after) ∨ (h.update e).on site = (.ok changed, after))
    (scope : ScopeKey) (t : Topology) (hheld : site.held.scopes.get? scope = some t) :
    (after.held.scopes.get? scope = none ↔ e.FindsEmpty scope t) ∧
    ((after.held.scopes.get? scope = none ↔ e.FindsEmpty scope t ∧ e.NamesWhole scope) ↔
      (e.FindsEmpty scope t → e.NamesWhole scope)) := by
  obtain ⟨applied, happly⟩ := applied_of_ok hok
  rw [hstrategy] at happly
  have hout := ScopeOutcome.of_apply happly scope
  rw [hheld] at hout
  have hgone : after.held.scopes.get? scope = none ↔ e.FindsEmpty scope t := hout.gone_iff
  refine ⟨hgone, ?_⟩
  rw [hgone, iff_self_and]

/-- A cluster of one host. -/
def oneHost : Topology := { hosts := [{ id := 7, name := "h" }] }

/-- What deletes this host. It names the host, not the whole cluster. -/
def hostDeletion : Event Topology := .single "1" oneHost .delete

/-- Deleting the whole scope drops the cluster once its host has been deleted. -/
theorem deletion_boundary_emptied :
    let c : Controller := {}
    let emptied := c.topologyHolder.run
      [.call (.update (.single "1" oneHost .create)), .call (.update hostDeletion)] (c.siteOf c.topology)
    let after := ((c.topologyHolder.removeCluster "1").on emptied).2
    emptied.held.scopes.get? "1" = some {} ∧ after.held.scopes.get? "1" = none := by
  intro c emptied after
  have hheld : emptied.held.scopes.get? "1" = some {} := by decide +kernel
  have hok : ((c.topologyHolder.removeCluster "1").on emptied).1 = .ok true := by decide +kernel
  refine ⟨hheld, ?_⟩
  refine (deletion_boundary c.topologyHolder rfl (.single "1" {} .delete) emptied after true
    (.inr (Prod.ext hok rfl)) "1" {} hheld).1.2 ⟨rfl, rfl, {}, rfl⟩

/-- A deletion that names a host, delivered once more, drops the cluster that the first delivery emptied. -/
theorem redelivered_deletion_drops :
    let c : Controller := {}
    let emptied := c.topologyHolder.run
      [.call (.update (.single "1" oneHost .create)), .call (.update hostDeletion)] (c.siteOf c.topology)
    let after := (c.topologyHolder.update hostDeletion).on emptied
    ¬ hostDeletion.NamesWhole "1" ∧ emptied.held.scopes.get? "1" = some {} ∧
      after.1 = .ok true ∧ after.2.held.scopes.get? "1" = none := by
  intro c emptied after
  refine ⟨?_, by decide +kernel, by decide +kernel, by decide +kernel⟩
  rintro ⟨d, hd, hempty⟩
  have hone : some oneHost = some d := hd
  cases hone
  cases hempty

end Holder
end FleetSync
