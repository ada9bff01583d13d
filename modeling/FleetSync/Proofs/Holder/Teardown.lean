import FleetSync.Proofs.Holder.Following
import FleetSync.Proofs.Topology.Deleting

/-!
Taking a cluster down.

No single deletion drops a cluster that has something in it. The deletion of everything that a cluster names
takes its hosts and its references, and of its components those that had no references before. The others stay
as a husk, without any (`Topology.remove_self`). Naming them once more, without references, takes them too
(`Topology.remove_husk`), and an empty cluster is dropped when the holder is asked for it (`Holder.Drops`). To ask
earlier than that does no harm (`Holder.Lingers`).

Each step of this is a deletion for held scopes, which cannot fail (`Held.apply_deletion`), and it makes no
difference whether it is announced as long as announcements are taken (`Holder.after_of_apply`).
-/
namespace FleetSync

/-! ### Husks -/

/-- The component without its references. -/
def Component.withoutReferences (c : Component) : Component :=
  { c with hostIds := ∅, hostNames := ∅, publicHostNames := ∅ }

theorem Component.removeReferences_self (c : Component) : c.removeReferences c = c.withoutReferences := by
  have hsame : c.SameIdentity c := ⟨rfl, rfl⟩
  rw [removeReferences, if_pos hsame]
  simp only [OrdSet.diff_self, withoutReferences]

namespace Topology

/-- The components that have references, without these. -/
def husk (t : Topology) : Topology where
  components := (t.components.filter (·.hasReferences)).map Component.withoutReferences

/-- A payload that names the components of a topology without references. -/
structure NamesBare (d t : Topology) : Prop where
  bare : ∀ c ∈ d.components, c.hasReferences = false
  named : ∀ c ∈ t.components, c.identity ∈ d.components.map Component.identity

/-- A topology that repeats no component and is deleted as it is leaves its husk. -/
theorem remove_self {t : Topology} (ht : (t.components.map Component.identity).Nodup) :
    (t.update t .delete).1 = t.husk := by
  have hself : ∀ c ∈ t.components, c.afterDeletion t.components =
      (Option.guard (·.hasReferences) c).map Component.withoutReferences := by
    intro c hc
    rw [Component.afterDeletion, find?_key_of_mem ht hc, Option.elim_some, Component.leftBy,
      Component.removeReferences_self]
    by_cases hrefs : c.hasReferences <;> simp [Option.guard, hrefs]
  have hcomponents : (runSteps removeComponent t.components t.components).1 = t.husk.components := by
    rw [runSteps_removeComponent_eq_filterMap ht ht, List.filterMap_congr hself, ← List.map_filterMap,
      List.filterMap_eq_filter]
    rfl
  have hhosts : (runSteps removeHost t.hosts t.hosts).1 = [] := by
    rw [runSteps_removeHost, List.filter_eq_nil_iff]
    intro h hh
    simpa using ⟨h, hh, rfl⟩
  exact congrArg₂ Topology.mk hcomponents hhosts

theorem nodup_husk {t : Topology} (ht : (t.components.map Component.identity).Nodup) :
    (t.husk.components.map Component.identity).Nodup := by
  rw [← remove_self ht]
  exact thins_removeComponent.nodup t.components ht

theorem bare_husk (t : Topology) : ∀ c ∈ t.husk.components, c.hasReferences = false := by
  intro c hc
  obtain ⟨d, -, rfl⟩ := List.mem_map.1 hc
  rfl

/-- A component without references takes the one of its identity if that has none either. -/
theorem removeComponent_bare {delta : Component} (hdelta : delta.hasReferences = false) {items : List Component}
    (hitems : ∀ c ∈ items, c.hasReferences = false) (hnodup : (items.map Component.identity).Nodup) :
    (removeComponent delta items).1 = items.filter (·.identity ≠ delta.identity) := by
  rw [removeComponent_eq_filterMap delta hnodup, ← List.filterMap_eq_filter]
  refine List.filterMap_congr fun c hc => ?_
  by_cases hid : delta.identity = c.identity
  · rw [Component.afterDeletion_cons_of_eq hid, Component.leftBy]
    simp [hdelta, hitems c hc, hid, Option.guard]
  · rw [Component.afterDeletion_cons_of_ne hid]
    simp [Component.afterDeletion, Ne.symm hid]

/-- Components without references, in whatever order and however often, take those of their identities. -/
theorem runSteps_removeComponent_bare {deltas items : List Component}
    (hdeltas : ∀ d ∈ deltas, d.hasReferences = false) (hitems : ∀ c ∈ items, c.hasReferences = false)
    (hnodup : (items.map Component.identity).Nodup) :
    (runSteps removeComponent deltas items).1 = items.filter (·.identity ∉ deltas.map Component.identity) := by
  have hstep : ∀ d ∈ deltas, ∀ l : List Component,
      (∀ c ∈ l, c.hasReferences = false) ∧ (l.map Component.identity).Nodup →
      (removeComponent d l).1 = l.filter (·.identity ≠ d.identity) :=
    fun d hd l hl => removeComponent_bare (hdeltas d hd) hl.1 hl.2
  refine runSteps_eq_filter (fun p l hl => ?_) hstep ⟨hitems, hnodup⟩
  exact ⟨fun c hc => hl.1 c (List.mem_of_mem_filter hc), hl.2.sublist (List.filter_sublist.map _)⟩

/-- A husk is gone once its components are named without references. -/
theorem remove_husk {t d : Topology} (ht : (t.components.map Component.identity).Nodup)
    (hd : d.NamesBare t.husk) : (t.husk.update d .delete).1 = {} := by
  have hcomponents : (runSteps removeComponent d.components t.husk.components).1 = [] := by
    rw [runSteps_removeComponent_bare hd.bare t.bare_husk (nodup_husk ht), List.filter_eq_nil_iff]
    intro c hc
    simpa using hd.named c hc
  have hhosts : (runSteps removeHost d.hosts []).1 = [] := by rw [runSteps_removeHost, List.filter_nil]
  exact congrArg₂ Topology.mk hcomponents hhosts

end Topology

/-! ### Deletions for held scopes -/

/-- A deletion with payloads for held scopes only. -/
structure Event.DeletesHeld (e : Event Topology) (held : Held Topology) : Prop where
  type : e.type = .delete
  known : ∀ scope d, e.scopes.get? scope = some d → (held.scopes.get? scope).isSome = true

theorem Event.deletesHeld_single {held : Held Topology} {scope : ScopeKey} {t : Topology}
    (hheld : held.scopes.get? scope = some t) (d : Topology) : (single scope d .delete).DeletesHeld held where
  type := rfl
  known x payload hx := by
    rw [get?_single] at hx
    split at hx
    next h => rw [h, hheld, Option.isSome_some]
    next => cases hx

namespace Held

/-- A deletion for held scopes is applied, and counts as a change if there is anything to delete. -/
theorem apply_deletion (settings : TopologySettings) {e : Event Topology} {held : Held Topology}
    (he : e.DeletesHeld held) {scope : ScopeKey} {d : Topology} (hpayload : e.scopes.get? scope = some d) :
    ∃ next, held.apply (.topology settings) e = .ok (next, true) := by
  have hc := apply_cases (.topology settings) e held
  cases happly : held.apply (.topology settings) e with
  | ok r =>
    have hsome : e.scopes.isEmpty = false := by
      rw [Bool.eq_false_iff, Ne, OrdMap.isEmpty_iff]
      intro hempty
      rw [hempty] at hpayload
      cases hpayload
    have hchanged := changed_topology happly
    rw [hsome] at hchanged
    exact ⟨r.1, congrArg Except.ok (Prod.ext rfl hchanged)⟩
  | error f =>
    rw [happly, he.type] at hc
    obtain ⟨p, hp, hfail⟩ := hc.exists_mem
    obtain ⟨t, ht⟩ := Option.isSome_iff_exists.1 (he.known p.1 p.2 ((OrdMap.get?_eq_some_iff ..).2 hp))
    have hverdict : Strategy.mergeTopology p.1 (some t) p.2 .delete = .error f := ht ▸ hfail
    rw [Strategy.mergeTopology] at hverdict
    split at hverdict <;> cases hverdict

/-- A deletion takes its payload away from what is held, unless this is empty. -/
theorem get?_of_apply_deletion {settings : TopologySettings} {e : Event Topology} {held next : Held Topology}
    {changed : Bool} (happly : held.apply (.topology settings) e = .ok (next, changed)) (htype : e.type = .delete)
    {scope : ScopeKey} {d t : Topology} (hpayload : e.scopes.get? scope = some d)
    (hheld : held.scopes.get? scope = some t) :
    next.scopes.get? scope = if t.isEmpty then none else some (t.update d .delete).1 := by
  have hout := ScopeOutcome.of_apply happly scope
  rw [htype, hpayload, hheld] at hout
  generalize next.scopes.get? scope = after at hout ⊢
  cases hout with
  | dropped _ _ _ hempty => rw [if_pos hempty]
  | updated _ _ hnot => rw [if_neg fun hempty => hnot ⟨rfl, hempty⟩]

/-- To delete a scope as a whole is to drop it if it is empty, and to do nothing to it if it is not. -/
theorem scopes_of_apply_removal {settings : TopologySettings} {held next : Held Topology} {changed : Bool}
    {scope : ScopeKey} {t : Topology} (hheld : held.scopes.get? scope = some t)
    (happly : held.apply (.topology settings) (.single scope {} .delete) = .ok (next, changed)) :
    next.scopes = if t.isEmpty then held.scopes.erase scope else held.scopes := by
  refine OrdMap.ext_get? fun x => ?_
  by_cases hx : x = scope
  · subst hx
    have hpayload : (Event.single x ({} : Topology) .delete).scopes.get? x = some {} := by
      rw [Event.get?_single, if_pos rfl]
    rw [get?_of_apply_deletion happly rfl hpayload hheld]
    split
    next => rw [OrdMap.get?_erase, if_pos rfl]
    next => exact hheld.symm
  · have hnone : (Event.single scope ({} : Topology) .delete).scopes.get? x = none := by
      rw [Event.get?_single, if_neg hx]
    have hout := ScopeOutcome.of_apply happly x
    rw [hnone] at hout
    rw [hout.eq_of_none]
    split
    next => rw [OrdMap.get?_erase, if_neg hx]
    next => rfl

/-- A scope that is not held cannot be deleted. -/
theorem apply_removal_of_none (settings : TopologySettings) {held : Held Topology} {scope : ScopeKey}
    (hnone : held.scopes.get? scope = none) (d : Topology) :
    held.apply (.topology settings) (.single scope d .delete) = .error (.scopeNotFound scope) := by
  have hverdict : verdictOn (.topology settings) .delete held.scopes (scope, d) =
      .error (.scopeNotFound scope) := by
    rw [verdictOn, hnone]
    rfl
  rw [apply, mergeScopes_single (.topology settings) .delete (scope, d), hverdict]
  rfl

end Held

namespace Holder
variable {ω : Type}

/-! ### Calls -/

/-- The event, announced or not, changes what is held, and everything can be sent after it, as before. -/
def After (h : Holder ω Topology) (e : Event Topology) (site : Site ω Topology)
    (P : Site ω Topology → Prop) : Prop :=
  ∀ deliver : Event Topology → Op (Site ω Topology) Bool, deliver = h.apply ∨ deliver = h.update →
    ∃ after, (deliver e).on site = (.ok true, after) ∧ h.transport.Reliable after.world ∧ P after

/-- The holder, asked to drop the cluster, does so, and fails when it is asked again. -/
def Drops (h : Holder ω Topology) (scope : ScopeKey) (site : Site ω Topology) : Prop :=
  ∃ dropped, (h.removeCluster scope).on site = (.ok true, dropped) ∧
    dropped.held.scopes = site.held.scopes.erase scope ∧
    (h.removeCluster scope).on dropped = (.error (.scopeNotFound scope), dropped)

/-- The holder, asked to drop the cluster, succeeds, but leaves every scope as it is. -/
def Lingers (h : Holder ω Topology) (scope : ScopeKey) (site : Site ω Topology) : Prop :=
  ∃ after, (h.removeCluster scope).on site = (.ok true, after) ∧ after.held.scopes = site.held.scopes

section
variable {h : Holder ω Topology} {settings : TopologySettings} (hstrategy : h.strategy = .topology settings)
  {site : Site ω Topology}
include hstrategy

theorem after_of_apply (hreliable : h.transport.Reliable site.world) {e : Event Topology} {next : Held Topology}
    (happly : site.held.apply (.topology settings) e = .ok (next, true)) {P : Site ω Topology → Prop}
    (hnext : ∀ after, after.held = next → h.transport.Reliable after.world → P after) : h.After e site P := by
  rintro deliver (rfl | rfl)
  · refine ⟨{ site with held := next, tally := site.tally.count true }, ?_, hreliable, hnext _ rfl hreliable⟩
    rw [on_apply, hstrategy, happly]
  · obtain ⟨world, hreliable', hupdate⟩ := on_update_topology hstrategy happly hreliable
    exact ⟨_, hupdate, hreliable', hnext _ rfl hreliable'⟩

/-- A deletion that finds something in a cluster takes its payload away. -/
theorem after_deletion (hreliable : h.transport.Reliable site.world) {e : Event Topology}
    (he : e.DeletesHeld site.held) {scope : ScopeKey} {d t : Topology} (hpayload : e.scopes.get? scope = some d)
    (hheld : site.held.scopes.get? scope = some t) (hsome : t.isEmpty = false) {P : Site ω Topology → Prop}
    (hnext : ∀ after : Site ω Topology, after.held.scopes.get? scope = some (t.update d .delete).1 →
      h.transport.Reliable after.world → P after) : h.After e site P := by
  obtain ⟨next, happly⟩ := Held.apply_deletion settings he hpayload
  refine after_of_apply hstrategy hreliable happly fun after hafter => hnext after ?_
  rw [hafter, Held.get?_of_apply_deletion happly he.type hpayload hheld, hsome]
  rfl

theorem removeCluster_eq (scope : ScopeKey) : h.removeCluster scope = h.update (.single scope {} .delete) := by
  rw [removeCluster, hstrategy]
  rfl

/-- Asked to drop a held cluster, the holder does so if it is empty, and nothing else. -/
theorem on_removeCluster (hreliable : h.transport.Reliable site.world) {scope : ScopeKey} {t : Topology}
    (hheld : site.held.scopes.get? scope = some t) :
    ∃ after, (h.removeCluster scope).on site = (.ok true, after) ∧
      after.held.scopes = if t.isEmpty then site.held.scopes.erase scope else site.held.scopes := by
  have hpayload : (Event.single scope ({} : Topology) .delete).scopes.get? scope = some {} := by
    rw [Event.get?_single, if_pos rfl]
  obtain ⟨next, happly⟩ := Held.apply_deletion settings (Event.deletesHeld_single hheld {}) hpayload
  have hafter := after_of_apply hstrategy hreliable happly
    (P := fun after => after.held = next) fun after hafter _ => hafter
  obtain ⟨after, hok, -, hheld'⟩ := hafter h.update (.inr rfl)
  refine ⟨after, removeCluster_eq hstrategy scope ▸ hok, ?_⟩
  rw [hheld', Held.scopes_of_apply_removal hheld happly]

theorem on_removeCluster_of_none {scope : ScopeKey} (hnone : site.held.scopes.get? scope = none) :
    (h.removeCluster scope).on site = (.error (.scopeNotFound scope), site) := by
  have happly : (h.apply (.single scope {} .delete)).on site = (.error (.scopeNotFound scope), site) := by
    rw [on_apply, hstrategy, Held.apply_removal_of_none settings hnone]
  rw [removeCluster_eq hstrategy, update]
  exact Op.on_bind_of_error happly

theorem drops_of_isEmpty (hreliable : h.transport.Reliable site.world) {scope : ScopeKey} {t : Topology}
    (hheld : site.held.scopes.get? scope = some t) (hempty : t.isEmpty = true) : h.Drops scope site := by
  obtain ⟨dropped, hok, hscopes⟩ := on_removeCluster hstrategy hreliable hheld
  rw [if_pos hempty] at hscopes
  have hnone : dropped.held.scopes.get? scope = none := by rw [hscopes, OrdMap.get?_erase, if_pos rfl]
  exact ⟨dropped, hok, hscopes, on_removeCluster_of_none hstrategy hnone⟩

theorem lingers_of_isEmpty_false (hreliable : h.transport.Reliable site.world) {scope : ScopeKey} {t : Topology}
    (hheld : site.held.scopes.get? scope = some t) (hsome : t.isEmpty = false) : h.Lingers scope site := by
  obtain ⟨after, hok, hscopes⟩ := on_removeCluster hstrategy hreliable hheld
  exact ⟨after, hok, by simpa [hsome] using hscopes⟩

end

/-- Every cluster can be taken down.

Its topology is not empty and repeats no component, and announcements are taken. A deletion carries it as it is,
and may carry payloads for other held scopes. It leaves the husk of the cluster. If that is empty, the cluster is
dropped on demand. Otherwise a deletion that names what is in the husk without references leaves the cluster
empty, to be dropped on demand. Before that, a demand to drop it succeeds without an effect on any scope. -/
theorem teardown (h : Holder ω Topology) {settings : TopologySettings}
    (hstrategy : h.strategy = .topology settings) (site : Site ω Topology)
    (hreliable : h.transport.Reliable site.world) (scope : ScopeKey) (t : Topology)
    (hheld : site.held.scopes.get? scope = some t) (hsome : t.isEmpty = false)
    (hnodup : (t.components.map Component.identity).Nodup) :
    h.Lingers scope site ∧
    ∀ e : Event Topology, e.DeletesHeld site.held → e.scopes.get? scope = some t →
      h.After e site fun first =>
        first.held.scopes.get? scope = some t.husk ∧
        (t.husk.isEmpty = true → h.Drops scope first) ∧
        (t.husk.isEmpty = false → h.Lingers scope first ∧
          ∀ (e' : Event Topology) (d : Topology), e'.DeletesHeld first.held → e'.scopes.get? scope = some d →
            d.NamesBare t.husk →
            h.After e' first fun second =>
              second.held.scopes.get? scope = some {} ∧ h.Drops scope second) := by
  refine ⟨lingers_of_isEmpty_false hstrategy hreliable hheld hsome, fun e he hpayload => ?_⟩
  refine after_deletion hstrategy hreliable he hpayload hheld hsome fun first hfirst hreliable' => ?_
  rw [Topology.remove_self hnodup] at hfirst
  refine ⟨hfirst, drops_of_isEmpty hstrategy hreliable' hfirst, fun hleft =>
    ⟨lingers_of_isEmpty_false hstrategy hreliable' hfirst hleft, fun e' d he' hpayload' hnames => ?_⟩⟩
  refine after_deletion hstrategy hreliable' he' hpayload' hfirst hleft fun second hsecond hreliable'' => ?_
  rw [Topology.remove_husk hnodup hnames] at hsecond
  exact ⟨hsecond, drops_of_isEmpty hstrategy hreliable'' hsecond rfl⟩

/-- The components of the cluster of four that have references, without these, in another order and one of them
twice. -/
def bareThree : Topology where
  components := [{ name := "D", service := "S" }, { name := "A", service := "S" }, { name := "C", service := "S" },
    { name := "A", service := "S" }]

/-- The cluster of four is taken down by an announced deletion, and one that is not announced. -/
theorem teardown_ofFour :
    let c : Controller := {}
    let h := c.topologyHolder
    let site := { c.siteOf c.topology with
      held := .ofScopes ((∅ : OrdMap ScopeKey Topology).insert "1" .ofFour) }
    h.Lingers "1" site ∧ ∃ first, (h.update (.single "1" .ofFour .delete)).on site = (.ok true, first) ∧
      (∃ t, first.held.scopes.get? "1" = some t ∧ t.components.map (·.name) = ["A", "C", "D"]) ∧
      h.Lingers "1" first ∧ ∃ second, (h.apply (.single "1" bareThree .delete)).on first = (.ok true, second) ∧
        second.held.scopes.get? "1" = some {} ∧ h.Drops "1" second := by
  intro c h site
  have hheld : site.held.scopes.get? "1" = some .ofFour := rfl
  have hnames : bareThree.NamesBare Topology.ofFour.husk := ⟨by decide, by decide⟩
  obtain ⟨hlingers, hdeletion⟩ := teardown h rfl site (Surroundings.reliable_transport rfl rfl) "1" .ofFour hheld
    rfl (by decide)
  obtain ⟨first, hfirst, -, hhusk, -, hnext⟩ := hdeletion (.single "1" .ofFour .delete)
    (Event.deletesHeld_single hheld _) rfl h.update (.inr rfl)
  obtain ⟨hlingers', hdeletion'⟩ := hnext rfl
  obtain ⟨second, hsecond, -, hempty, hdrops⟩ := hdeletion' (.single "1" bareThree .delete) bareThree
    (Event.deletesHeld_single hhusk _) rfl hnames h.apply (.inl rfl)
  exact ⟨hlingers, first, hfirst, ⟨_, hhusk, rfl⟩, hlingers', second, hsecond, hempty, hdrops⟩

end Holder
end FleetSync
