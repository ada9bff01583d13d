import FleetSync.Proofs.Holder.Batching
import FleetSync.Proofs.Holder.Calls
import FleetSync.Proofs.Topology.Removing

/-!
Events that are delivered twice.

A creation or an update that comes again finds what it left the first time. Where its payload was merged into
a topology, merging it again does nothing, whatever it repeats and however often its entries overwrite each
other (`Topology.merge_twice`). Where its payload is held as it is, it is merged into itself, which does
nothing if it repeats nothing (`Topology.merge_self`). So the second delivery counts as a change like the
first, but leaves what the first has left (`Held.apply_twice`). A deletion that comes again leaves its topology
as it is, too (`Topology.remove_twice`); it is the holder that may then drop an empty one.
-/
namespace FleetSync

/-- A payload without repetition that is combined with what it left already makes no difference. -/
theorem Topology.combined_twice {held : Option Topology} {delta : Topology} (h : held = none → delta.Unique) :
    combined (some (combined held delta)) delta = combined held delta := by
  cases held with
  | none => exact merge_self (h rfl)
  | some t => exact merge_twice t delta

/-- A scope that comes out of an event comes out of its second delivery as it is. -/
theorem ScopeOutcome.eq_of_again {type : EventType} {payload before once twice : Option Topology}
    (hfirst : ScopeOutcome type payload before once) (hagain : ScopeOutcome type payload once twice)
    (htype : type ≠ .delete) (hunique : before = none → ∀ delta, payload = some delta → delta.Unique) :
    twice = once := by
  cases payload with
  | none => exact hagain.eq_of_none
  | some delta =>
    have honce := hfirst.eq_combined htype
    have htwice := hagain.eq_combined htype
    rw [htwice, honce, Topology.combined_twice fun hnone => hunique hnone delta rfl]

/-- A creation or an update, all of whose payloads for scopes that are not held repeat nothing, changes what
is held the first time only. -/
theorem Held.apply_twice (settings : TopologySettings) {e : Event Topology} (htype : e.type ≠ .delete)
    (held : Held Topology) (hunique : ∀ scope delta, held.scopes.get? scope = none →
      e.scopes.get? scope = some delta → delta.Unique) :
    ∃ next changed, held.apply (.topology settings) e = .ok (next, changed) ∧
      next.apply (.topology settings) e = .ok (next, changed) := by
  obtain ⟨⟨once, changed⟩, hfirst⟩ := exists_apply_topology settings htype held
  obtain ⟨⟨twice, changed'⟩, hagain⟩ := exists_apply_topology settings htype once
  have hscopes : twice.scopes = once.scopes := OrdMap.ext_get? fun scope =>
    (ScopeOutcome.of_apply hfirst scope).eq_of_again (ScopeOutcome.of_apply hagain scope) htype
      fun hnone delta => hunique scope delta hnone
  obtain rfl : changed' = changed := (changed_topology hagain).trans (changed_topology hfirst).symm
  have hsame : twice = once := by
    have honce := eq_of_apply hfirst
    have htwice := eq_of_apply hagain
    cases changed' with
    | false => exact htwice
    | true =>
      rw [hscopes] at htwice
      exact htwice.trans honce.symm
  exact ⟨once, changed', hfirst, hsame ▸ hagain⟩

namespace Holder
variable {ω : Type}

/-- A call that applies an event, announced or not, leaves what the event makes of what is held. -/
theorem held_of_delivery {h : Holder ω Topology} {e : Event Topology} {c : Call Topology}
    (hc : c = .apply e ∨ c = .update e) (site : Site ω Topology) :
    ((c.perform h).on site).2.held = (Call.apply e).leaves h site := by
  rcases hc with rfl | rfl
  · exact (congrArg Site.held (Op.snd_on_bind_pure ..)).trans (h.held_apply e site)
  · exact (congrArg Site.held (Op.snd_on_bind_pure ..)).trans (h.held_update e site)

/-- Events that are delivered twice do no harm.

A creation or an update may have any payloads for scopes that are held, but none that repeats something for
a scope that is not. Then it is applied, and applied once more it leaves the same scopes and the same
fingerprint, be it announced or not, and be the announcement taken or not. A topology that a deletion, neither
of them repeating a component, was taken away from is left as it is by the same deletion. -/
theorem redelivery_harmless (h : Holder ω Topology) {settings : TopologySettings}
    (hstrategy : h.strategy = .topology settings) (e : Event Topology) (htype : e.type ≠ .delete)
    (site : Site ω Topology) (hunique : ∀ scope delta, site.held.scopes.get? scope = none →
      e.scopes.get? scope = some delta → delta.Unique) :
    (∃ once changed, site.held.apply h.strategy e = .ok (once, changed) ∧
      once.apply h.strategy e = .ok (once, changed) ∧
      ∀ first again : Call Topology, (first = .apply e ∨ first = .update e) →
        (again = .apply e ∨ again = .update e) →
        ((first.perform h).on site).2.held = once ∧
          ((again.perform h).on ((first.perform h).on site).2).2.held = once) ∧
    ∀ t delta : Topology, (t.components.map Component.identity).Nodup →
      (delta.components.map Component.identity).Nodup →
      ((t.update delta .delete).1.update delta .delete).1 = (t.update delta .delete).1 := by
  refine ⟨?_, fun t delta ht hdelta => Topology.remove_twice ht hdelta⟩
  obtain ⟨once, changed, hfirst, hagain⟩ := Held.apply_twice settings htype site.held hunique
  rw [hstrategy]
  refine ⟨once, changed, hfirst, hagain, fun first again hcall hcall' => ?_⟩
  have honce : ((first.perform h).on site).2.held = once := by
    rw [held_of_delivery hcall, Call.leaves, hstrategy, hfirst]
  refine ⟨honce, ?_⟩
  rw [held_of_delivery hcall', Call.leaves, honce, hstrategy, hagain]

/-- A creation that contradicts itself for a cluster that is held, and that inserts another one. -/
def contradicting : Event Topology := (Event.single "1" Topology.ofTwiceNamed .create).withScope "2" ofOnce

/-- It takes a component, the references of another one, and a host. -/
def partDeletion : Topology where
  components := [{ name := "B", service := "S" }, { name := "A", service := "S", hostIds := .ofList [1, 4] }]
  hosts := [{ id := 2, name := "" }]

/-- The creation is announced the first time, and comes again. What it makes of the first cluster is then
deleted in part. -/
theorem redelivery_harmless_contradicting :
    let c : Controller := {}
    let site := { c.siteOf c.topology with
      held := .ofScopes ((∅ : OrdMap ScopeKey Topology).insert "1" .ofTwo) }
    let once := (((Call.update contradicting).perform c.topologyHolder).on site).2
    let twice := (((Call.apply contradicting).perform c.topologyHolder).on once).2
    let left := (Topology.twiceNamedInTwo.update partDeletion .delete).1
    twice.held = once.held ∧ once.held.scopes.get? "1" = some .twiceNamedInTwo ∧
      once.held.scopes.get? "2" = some ofOnce ∧
      (left.update partDeletion .delete).1 = left ∧ left.components.length = 2 := by
  intro c site once twice left
  have htype : contradicting.type ≠ .delete := by decide
  have hunique : ∀ scope delta, site.held.scopes.get? scope = none →
      contradicting.scopes.get? scope = some delta → delta.Unique := by
    intro scope delta hnone hpayload
    have hmem := (OrdMap.get?_eq_some_iff ..).1 hpayload
    have hentries : contradicting.scopes.toList = [("1", .ofTwiceNamed), ("2", ofOnce)] := by decide
    rw [hentries] at hmem
    simp only [List.mem_cons, Prod.mk.injEq, List.not_mem_nil, or_false] at hmem
    rcases hmem with ⟨rfl, -⟩ | ⟨-, rfl⟩
    · cases hnone
    · decide
  obtain ⟨⟨held, changed, -, -, hheld⟩, hremove⟩ :=
    redelivery_harmless c.topologyHolder rfl contradicting htype site hunique
  obtain ⟨honce, htwice⟩ := hheld (.update contradicting) (.apply contradicting) (.inr rfl) (.inl rfl)
  refine ⟨htwice.trans honce.symm, by decide +kernel, by decide +kernel, ?_, by decide +kernel⟩
  exact hremove .twiceNamedInTwo partDeletion (by decide) (by decide)

end Holder
end FleetSync
