import FleetSync.Proofs.Holder.Announcing
import FleetSync.Proofs.Holder.Outcome
import FleetSync.Proofs.Topology.AgentCopy

/-!
Agents that merge what is broadcast have the copy of what is held.

A map over the values of held scopes may be put before or after an event if it may be put before or after
each verdict (`Held.mergeScopes_map`). Clearing host names is such a map as long as nothing is deleted
(`Strategy.mergeTopology_agentCopy`), so the broadcast of an event does to the agents' copy what the event
does to the held scopes. Each call is followed in this way (`Holder.followed_update`), hence each run of
calls is.
-/
namespace FleetSync

/-! ### Scopes -/

namespace Held
variable {α : Type}

theorem map_settle {β : Type} (f : α → β) (scopes : OrdMap ScopeKey α) (scope : ScopeKey) (v : Verdict α) :
    (settle scopes scope v).map f = settle (scopes.map f) scope (v.map f) := by
  refine OrdMap.ext_get? fun x => ?_
  rw [OrdMap.get?_map, get?_settle, get?_settle, OrdMap.get?_map, OrdMap.get?_map, Verdict.resolve_map]
  split <;> rfl

section
variable {s : Strategy α} {type : EventType} {f : α → α}
  (hmerge : ∀ scope held d, s.merge scope (held.map f) (f d) type =
    (s.merge scope held d type).map (Verdict.map f))
include hmerge

theorem foldlM_mergeScope_map (entries : List (ScopeKey × α)) (acc : OrdMap ScopeKey α × Bool) :
    (entries.map fun p => (p.1, f p.2)).foldlM (mergeScope s type) (acc.1.map f, acc.2) =
      (entries.foldlM (mergeScope s type) acc).map fun r => (r.1.map f, r.2) := by
  induction entries generalizing acc with
  | nil => rfl
  | cons p entries ih =>
    have hv : verdictOn s type (acc.1.map f) (p.1, f p.2) =
        (verdictOn s type acc.1 p).map (Verdict.map f) := by
      rw [verdictOn, OrdMap.get?_map, hmerge, verdictOn]
    rw [List.map_cons, List.foldlM_cons, List.foldlM_cons, mergeScope_eq, mergeScope_eq, hv]
    cases verdictOn s type acc.1 p with
    | error g => rfl
    | ok v =>
      have hstep : (settle (acc.1.map f) p.1 (v.map f), acc.2 || (v.map f).isChange) =
          ((settle acc.1 p.1 v).map f, acc.2 || v.isChange) := by
        rw [map_settle, Verdict.isChange_map]
      show List.foldlM _ (settle (acc.1.map f) p.1 (v.map f), acc.2 || (v.map f).isChange) _ = _
      rw [hstep]
      exact ih (settle acc.1 p.1 v, acc.2 || v.isChange)

end

/-- What may be put before or after each verdict may be put before or after merging an event. -/
theorem mergeScopes_map {s : Strategy α} {e : Event α} {f : α → α}
    (hmerge : ∀ scope held d, s.merge scope (held.map f) (f d) e.type =
      (s.merge scope held d e.type).map (Verdict.map f)) (scopes : OrdMap ScopeKey α) :
    mergeScopes s (e.map f) (scopes.map f) =
      (mergeScopes s e scopes).map fun r => (r.1.map f, r.2) :=
  foldlM_mergeScope_map hmerge e.scopes.toList (scopes, false)

/-- Merges events into scopes, one after another. -/
def follow (s : Strategy α) (events : List (Event α)) (scopes : OrdMap ScopeKey α) :
    Except Fault (OrdMap ScopeKey α) :=
  events.foldlM (fun scopes e => (mergeScopes s e scopes).map (·.1)) scopes

theorem follow_singleton (s : Strategy α) (e : Event α) (scopes : OrdMap ScopeKey α) :
    follow s [e] scopes = (mergeScopes s e scopes).map (·.1) := by
  rw [follow, List.foldlM_cons]
  cases mergeScopes s e scopes <;> rfl

/-- Two runs of events, one after the other. -/
theorem follow_append {s : Strategy α} {first second : List (Event α)} {a b c : OrdMap ScopeKey α}
    (hfirst : follow s first a = .ok b) (hsecond : follow s second b = .ok c) :
    follow s (first ++ second) a = .ok c := by
  rw [follow, List.foldlM_append]
  exact bind_eq_ok_iff.2 ⟨b, hfirst, hsecond⟩

section
variable [Wire α] {s : Strategy α} {e : Event α} {held next : Held α} {changed : Bool}

theorem mergeScopes_of_apply (happly : held.apply s e = .ok (next, changed)) :
    mergeScopes s e held.scopes = .ok (next.scopes, changed) := by
  obtain ⟨⟨scopes, changed'⟩, hmerged, hnext⟩ := bind_eq_ok_iff.1 happly
  have hm := mergeScopes_cases s e held.scopes
  rw [hmerged] at hm
  cases changed' with
  | true =>
    cases hnext
    exact hmerged
  | false =>
    obtain rfl := Merged.eq_of_unchanged hm
    cases hnext
    exact hmerged

theorem follow_of_apply (happly : held.apply s e = .ok (next, changed)) :
    follow s [e] held.scopes = .ok next.scopes := by
  rw [follow_singleton, mergeScopes_of_apply happly]
  rfl

theorem eq_of_apply_unchanged (happly : held.apply s e = .ok (next, false)) : next = held :=
  eq_of_apply happly

end

end Held

/-- Nothing is deleted, so host names may be cleared before or after a verdict. -/
theorem Strategy.mergeTopology_agentCopy {type : EventType} (htype : type ≠ .delete) (scope : ScopeKey)
    (held : Option Topology) (d : Topology) :
    mergeTopology scope (held.map Topology.agentCopy) d.agentCopy type =
      (mergeTopology scope held d type).map (Verdict.map Topology.agentCopy) := by
  cases held with
  | none => cases type <;> rfl
  | some t =>
    have hmerge : Verdict.changed (t.agentCopy.merge d.agentCopy).1 =
        (Verdict.changed (t.merge d).1).map Topology.agentCopy :=
      congrArg Verdict.changed (t.agentCopy_merge d)
    cases type with
    | delete => exact absurd rfl htype
    | create | update => exact congrArg Except.ok hmerge

namespace Holder
variable {ω : Type}

/-! ### Calls -/

/-- The envelope of an event that agents are told. -/
def announcement (settings : TopologySettings) (e : Event Topology) : Envelope :=
  ⟨.broadcast settings.destination, .topology e⟩

/-- What is held at the one site is turned into what is held at the other by merging the events, and the
agents' copy of it by merging what is sent meanwhile. -/
structure Followed (settings : TopologySettings) (events : List (Event Topology))
    (before after : Site ω Topology) : Prop where
  held : Held.follow (.topology settings) events before.held.scopes = .ok after.held.scopes
  heard : ∃ heard : List (Event Topology), after.sent = before.sent ++ heard.map (announcement settings) ∧
    Held.follow (.topology settings) heard (before.held.scopes.map Topology.agentCopy) =
      .ok (after.held.scopes.map Topology.agentCopy)

namespace Followed
variable {settings : TopologySettings} {first second : List (Event Topology)} {s t u : Site ω Topology}

theorem nil (s : Site ω Topology) : Followed settings [] s s := ⟨rfl, [], by simp, rfl⟩

theorem append (hst : Followed settings first s t) (htu : Followed settings second t u) :
    Followed settings (first ++ second) s u := by
  obtain ⟨sent, hsent, hfollow⟩ := hst.heard
  obtain ⟨sent', hsent', hfollow'⟩ := htu.heard
  refine ⟨Held.follow_append hst.held htu.held, sent ++ sent', ?_, Held.follow_append hfollow hfollow'⟩
  rw [hsent', hsent, List.map_append, List.append_assoc]

end Followed

section
variable {h : Holder ω Topology} {settings : TopologySettings} (hstrategy : h.strategy = .topology settings)
include hstrategy

/-- Announcing an event that changed what is held sends one envelope. -/
theorem on_announceHeld_topology (e : Event Topology) (site : Site ω Topology)
    (htransport : h.transport.Reliable site.world) :
    ∃ world, h.transport.Reliable world ∧ (h.announceHeld e).on site = (.ok (), { site with
      world
      sent := site.sent ++ [announcement settings (e.withFingerprint site.held.fingerprint).agentCopy] }) := by
  have hout : h.strategy.outbound (e.withFingerprint site.held.fingerprint) =
      .ok [announcement settings (e.withFingerprint site.held.fingerprint).agentCopy] := by
    rw [hstrategy]
    rfl
  obtain ⟨world, hsend, hreliable⟩ := htransport.send
    (announcement settings (e.withFingerprint site.held.fingerprint).agentCopy)
  refine ⟨world, hreliable, ?_⟩
  rw [on_announceHeld hout, List.forM_eq_forM, List.forM_cons, Op.on_bind, on_publish, hsend]
  rfl

/-- An update with an event that changes what is held sends one envelope. -/
theorem on_update_topology {e : Event Topology} {site : Site ω Topology} {next : Held Topology}
    (happly : site.held.apply (.topology settings) e = .ok (next, true))
    (htransport : h.transport.Reliable site.world) :
    ∃ world, h.transport.Reliable world ∧ (h.update e).on site = (.ok true, {
      held := next
      tally := site.tally.count true
      world
      sent := site.sent ++ [announcement settings (e.withFingerprint next.fingerprint).agentCopy] }) := by
  have happlied : (h.apply e).on site =
      (.ok true, { site with held := next, tally := site.tally.count true }) := by
    rw [on_apply, hstrategy, happly]
  obtain ⟨world, hreliable, hannounce⟩ := on_announceHeld_topology hstrategy e
    { site with held := next, tally := site.tally.count true } htransport
  rw [update, Op.on_bind_of_ok happlied]
  exact ⟨world, hreliable, Op.on_bind_of_ok hannounce⟩

/-- Creating and updating succeeds, and is followed. -/
theorem followed_update {e : Event Topology} (htype : e.type ≠ .delete) {site : Site ω Topology}
    (htransport : h.transport.Reliable site.world) :
    ∃ changed after, (h.update e).on site = (.ok changed, after) ∧ h.transport.Reliable after.world ∧
      Followed settings [e] site after := by
  obtain ⟨⟨held, changed⟩, happly⟩ := Held.exists_apply_topology settings htype site.held
  have hheld : Held.follow (.topology settings) [e] site.held.scopes = .ok held.scopes :=
    Held.follow_of_apply happly
  cases changed with
  | false =>
    have happlied : (h.apply e).on site = (.ok false, { site with held, tally := site.tally.count false }) := by
      rw [on_apply, hstrategy, happly]
    obtain rfl := Held.eq_of_apply_unchanged happly
    rw [update, Op.on_bind_of_ok happlied]
    exact ⟨false, _, rfl, htransport, hheld, [], by simp, rfl⟩
  | true =>
    obtain ⟨world, hreliable, hupdate⟩ := on_update_topology hstrategy happly htransport
    have hcopy := Held.mergeScopes_map (s := .topology settings)
      (Strategy.mergeTopology_agentCopy htype) site.held.scopes
    rw [Held.mergeScopes_of_apply happly] at hcopy
    refine ⟨true, _, hupdate, hreliable, hheld,
      [(e.withFingerprint held.fingerprint).agentCopy], rfl, ?_⟩
    -- the fingerprint that the broadcast bears has no part in merging it
    rw [Held.follow_singleton]
    exact congrArg (Except.map (·.1)) hcopy

/-! ### Runs -/

theorem followed_run {events : List (Event Topology)} (htypes : ∀ e ∈ events, e.type ≠ .delete)
    {site : Site ω Topology} (htransport : h.transport.Reliable site.world) :
    ∃ answers after, (events.mapM h.update).on site = (.ok answers, after) ∧
      Followed settings events site after := by
  induction events generalizing site with
  | nil => exact ⟨[], site, rfl, .nil site⟩
  | cons e events ih =>
    obtain ⟨htype, hrest⟩ := List.forall_mem_cons.1 htypes
    obtain ⟨changed, next, hupdate, hreliable, hfirst⟩ := followed_update hstrategy htype htransport
    obtain ⟨answers, after, hrun, hfollowed⟩ := ih hrest hreliable
    refine ⟨changed :: answers, after, ?_, hfirst.append hfollowed⟩
    rw [List.mapM_cons, Op.on_bind_of_ok hupdate, Op.on_bind_of_ok hrun]
    rfl

end

/-- Merging the broadcasts of creations and updates reproduces the agents' copy of what is held.

The holder starts out empty, its transport takes everything, and it is told of any creations and updates,
whatever is in them, as often as one likes. Every call succeeds then, and merges its event. Broadcasts are
all that is sent, and merging them in the order in which they were sent, beginning with nothing, gives the
held scopes without host names. As this is so for any calls, it is so after every single one of them. -/
theorem following_reproduces (h : Holder ω Topology) {settings : TopologySettings}
    (hstrategy : h.strategy = .topology settings) (start : Site ω Topology) (hstart : start.held = {})
    (htransport : h.transport.Reliable start.world) (events : List (Event Topology))
    (htypes : ∀ e ∈ events, e.type ≠ .delete) :
    ∃ answers after, (events.mapM h.update).on start = (.ok answers, after) ∧
      Held.follow (.topology settings) events ∅ = .ok after.held.scopes ∧
      ∃ heard : List (Event Topology), after.sent = start.sent ++ heard.map (announcement settings) ∧
        Held.follow (.topology settings) heard ∅ = .ok (after.held.scopes.map Topology.agentCopy) := by
  obtain ⟨answers, after, hrun, hheld, heard, hsent, hfollow⟩ :=
    followed_run hstrategy htypes htransport
  rw [hstart] at hheld hfollow
  exact ⟨answers, after, hrun, hheld, heard, hsent, hfollow⟩

end Holder

/-- The channel takes everything while it is open and there is no budget. -/
theorem Surroundings.reliable_transport {α : Type} {w : Surroundings α} (hopen : w.channel.isOpen = true)
    (hbudget : w.channel.budget = none) : transport.Reliable w := by
  intro es
  induction es generalizing w with
  | nil => exact ⟨w, .nil⟩
  | cons e es ih =>
    obtain ⟨w', htakes⟩ := @ih { w with channel := w.channel.count e.payload.kind } hopen hbudget
    exact ⟨w', .cons (send_eq hopen hbudget e) htakes⟩

namespace Holder

/-- A component is listed twice when its cluster is created, and once more, with other hosts, after that. -/
def repeating : List (Event Topology) := [
  .single "1" { components := [
    { name := "C", service := "S", hostIds := .ofList [1], hostNames := .ofList ["h"] },
    { name := "C", service := "S", publicHostNames := .ofList ["h.example"] }] } .create,
  .single "1" { components := [
    { name := "C", service := "S", hostIds := .ofList [2], hostNames := .ofList ["i"] }] } .update]

/-- The broadcasts of the controller's holder reproduce what it holds of such a cluster. -/
theorem following_reproduces_repeating :
    let c : Controller := {}
    let run := (repeating.mapM c.topologyHolder.update).on (c.siteOf c.topology)
    run.1 = .ok [true, true] ∧
    ∃ heard : List (Event Topology), run.2.sent = heard.map (announcement c.settings.topology) ∧
      heard.length = 2 ∧
      Held.follow (.topology c.settings.topology) heard ∅ =
        .ok (run.2.held.scopes.map Topology.agentCopy) := by
  intro c run
  obtain ⟨answers, after, hrun, -, heard, hsent, hfollow⟩ := following_reproduces c.topologyHolder rfl
    (c.siteOf c.topology) rfl (Surroundings.reliable_transport rfl rfl) repeating (by decide)
  have hrun' : run = (.ok answers, after) := hrun
  have hheard : run.2.sent = heard.map (announcement c.settings.topology) := by
    rw [hrun']
    exact hsent
  have hlength : run.2.sent.length = 2 := by decide +kernel
  rw [hheard, List.length_map] at hlength
  refine ⟨by decide +kernel, heard, hheard, hlength, ?_⟩
  rw [hrun']
  exact hfollow

end Holder
end FleetSync
