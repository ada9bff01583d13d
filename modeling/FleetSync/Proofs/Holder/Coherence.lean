import FleetSync.Proofs.Holder.Calls
import FleetSync.Proofs.Holder.Pointwise

/-!
A holder never shows scopes with a fingerprint other than theirs.

Each store takes the fingerprint anew or leaves the state as it was (`Held.kept_coherent`), so the two go
together after every run (`run_coherent`). A call that fails while the source is asked stops there, and
one that fails in merging stops where it began. What remains is an update that was merged: for topologies
and configurations there is always something to send then (`Strategy.Announces`), since a scope that could
be merged names a host, and so such an update fails only if the transport refuses an envelope
(`Holder.FailsByRefusal`).
-/
namespace FleetSync

/-! ### Coherence -/

namespace Held
variable {α : Type} [Wire α]

/-- The fingerprint is that of the scopes. -/
def Coherent (held : Held α) : Prop := held.fingerprint = FleetSync.fingerprint held.scopes

theorem coherent_ofScopes (scopes : OrdMap ScopeKey α) : (ofScopes scopes).Coherent := rfl

theorem kept_coherent (s : Strategy α) : Kept s Coherent := by
  intro held next hstep hc
  cases hstep with
  | applied e changed happly =>
    have hnext := eq_of_apply happly
    cases changed with
    | true =>
      rw [hnext]
      exact coherent_ofScopes next.scopes
    | false =>
      rw [hnext]
      exact hc
  | swapped scopes =>
    rw [swap]
    split
    · exact hc
    · exact coherent_ofScopes scopes
  | fetched scope value =>
    rw [storeFetched]
    split
    · exact hc
    · exact coherent_ofScopes _

end Held

namespace Holder
variable {ω α : Type} [Wire α]

/-- A holder that starts out empty is coherent after every run. -/
theorem run_coherent {h : Holder ω α} (hsource : h.source.Orderly h.strategy) {start : Site ω α}
    (hstart : start.held = {}) (steps : List (Step ω α)) : (h.run steps start).held.Coherent := by
  refine run_preserves (Held.kept_coherent h.strategy) hsource steps ?_
  rw [hstart]
  rfl

/-! ### Calls that fail -/

/-- The part of a call that asks the source. -/
def Call.ask (h : Holder ω α) : Call α → Op (Site ω α) Unit
  | load | resync => do let _ ← h.currentData
  | apply _ | update _ => return
  | scopeUpdateIfChanged scope _ => do
    let site ← get
    match site.held.scopes.get? scope with
    | some _ => return
    | none => do let _ ← h.source.fetch scope

/-- A call whose source fails does nothing after that. -/
theorem Call.perform_of_ask {h : Holder ω α} {c : Call α} {site asked : Site ω α} {f : Fault}
    (hask : (c.ask h).on site = (.error f, asked)) : (c.perform h).on site = (.error f, asked) := by
  cases c with
  | load =>
    have hdata : h.currentData.on site = (.error f, asked) := Op.error_of_on_bind_pure hask
    exact Op.on_bind_of_error (Op.on_bind_of_error hdata)
  | resync =>
    have hdata : h.currentData.on site = (.error f, asked) := Op.error_of_on_bind_pure hask
    exact Op.on_bind_of_error (Op.on_bind_of_error hdata)
  | apply e => cases hask
  | update e => cases hask
  | scopeUpdateIfChanged scope prior =>
    refine Op.on_bind_of_error ?_
    rw [Holder.scopeUpdateIfChanged, Op.on_bind, Op.on_get]
    rw [Call.ask, Op.on_bind, Op.on_get] at hask
    cases hget : site.held.scopes.get? scope with
    | some value =>
      simp only [hget] at hask
      cases hask
    | none =>
      simp only [hget] at hask ⊢
      exact Op.on_bind_of_error (Op.error_of_on_bind_pure hask)

/-- Asking a silent source leaves the held state alone. -/
theorem Call.ask_preserves {h : Holder ω α} (hsilent : h.source.Silent) (c : Call α) (held : Held α) :
    (c.ask h).Preserves (·.held = held) := by
  have hdata : h.currentData.Preserves (·.held = held) := currentData_preserves (hsilent held)
  cases c with
  | load => exact hdata.bind fun _ => Op.preserves_pure ()
  | resync => exact hdata.bind fun _ => Op.preserves_pure ()
  | apply e => exact Op.preserves_pure ()
  | update e => exact Op.preserves_pure ()
  | scopeUpdateIfChanged scope prior =>
    refine Op.preserves_get.bind fun site => ?_
    cases site.held.scopes.get? scope with
    | some value => exact Op.preserves_pure ()
    | none => exact ((hsilent held).fetch scope).bind fun _ => Op.preserves_pure ()

/-- An event that cannot be merged fails the call, which leaves the site as it was. -/
theorem Call.perform_of_apply_error {h : Holder ω α} {e : Event α} {site : Site ω α} {f : Fault}
    (herr : site.held.apply h.strategy e = .error f) {c : Call α} (hc : c = .apply e ∨ c = .update e) :
    (c.perform h).on site = (.error f, site) := by
  have happly : (h.apply e).on site = (.error f, site) := by rw [on_apply, herr]
  rcases hc with rfl | rfl
  · exact Op.on_bind_of_error happly
  · exact Op.on_bind_of_error (Op.on_bind_of_error happly)

end Holder

/-! ### Announcements -/

namespace Holder
variable {ω α : Type}

theorem on_publish (h : Holder ω α) (e : Envelope) (site : Site ω α) :
    (h.publish e).on site =
      match h.transport.send e site.world with
      | .ok () world => (.ok (), { site with world, sent := site.sent ++ [e] })
      | .error f world => (.error f, { site with world }) := by
  rw [Op.on, publish]
  cases h.transport.send e site.world <;> rfl

/-- Announcing is sending what the strategy has to say. -/
theorem on_announceHeld {h : Holder ω α} {e : Event α} {site : Site ω α} {envelopes : List Envelope}
    (hout : h.strategy.outbound (e.withFingerprint site.held.fingerprint) = .ok envelopes) :
    (h.announceHeld e).on site = (envelopes.forM h.publish).on site := by
  rw [announceHeld, Op.on_bind_of_ok (Op.on_get site), announce, hout]
  rfl

/-- Sending envelopes fails with the first one that the transport refuses; those before it are out. -/
theorem refuses_of_publish_error {h : Holder ω α} {envelopes : List Envelope} {site after : Site ω α}
    {f : Fault} (hfail : (envelopes.forM h.publish).on site = (.error f, after)) :
    ∃ taken e rest world, envelopes = taken ++ e :: rest ∧
      h.transport.RefusesAfter taken e site.world f world ∧
      after = { site with world, sent := site.sent ++ taken } := by
  induction envelopes generalizing site with
  | nil => cases hfail
  | cons e envelopes ih =>
    rw [List.forM_eq_forM, List.forM_cons, Op.on_bind, on_publish] at hfail
    cases hsend : h.transport.send e site.world with
    | error g world =>
      rw [hsend] at hfail
      cases hfail
      exact ⟨[], e, envelopes, world, rfl, ⟨site.world, .nil, hsend⟩, by simp⟩
    | ok u world =>
      rw [hsend] at hfail
      obtain ⟨taken, d, rest, world', rfl, ⟨w, htakes, hd⟩, rfl⟩ := ih hfail
      exact ⟨e :: taken, d, rest, world', rfl, ⟨w, .cons hsend htakes, hd⟩, by simp⟩

/-- An update whose event was merged fails only if the transport refuses an envelope. The new state is
then held and counted, and the envelopes before the refused one are out. -/
def FailsByRefusal [Wire α] (h : Holder ω α) : Prop :=
  ∀ (e : Event α) (site after : Site ω α) (held : Held α) (changed : Bool) (f : Fault),
    site.held.apply h.strategy e = .ok (held, changed) →
    (h.update e).on site = (.error f, after) →
    ∃ taken envelope rest world,
      h.strategy.outbound (e.withFingerprint held.fingerprint) = .ok (taken ++ envelope :: rest) ∧
      h.transport.RefusesAfter taken envelope site.world f world ∧
      after = { held, tally := site.tally.count changed, sent := site.sent ++ taken, world }

end Holder

namespace Strategy
variable {α : Type} [Wire α]

/-- There is something to send for every event that can be merged, under whatever fingerprint. -/
def Announces (s : Strategy α) : Prop :=
  ∀ (held : Held α) (e : Event α) (r : Held α × Bool), held.apply s e = .ok r →
    ∀ f, ∃ envelopes, s.outbound (e.withFingerprint f) = .ok envelopes

theorem announces_topology (settings : TopologySettings) : (topology settings).Announces := by
  intro held e r _ f
  exact ⟨_, rfl⟩

/-- A scope that could be merged names a host. -/
theorem hostOfScope_of_verdict {settings : ConfigsSettings} {type : EventType}
    {scopes : OrdMap ScopeKey HostConfigs} {p : ScopeKey × HostConfigs} {v : Verdict HostConfigs}
    (h : Held.verdictOn (configs settings) type scopes p = .ok v) : ∃ host, hostOfScope p.1 = .ok host := by
  obtain ⟨host, hhost, -⟩ := bind_eq_ok_iff.1 h
  exact ⟨host, hhost⟩

theorem announces_configs (settings : ConfigsSettings) : (configs settings).Announces := by
  intro held e r happly f
  have ha := Held.apply_cases (configs settings) e held
  rw [happly] at ha
  cases hout : (configs settings).outbound (e.withFingerprint f) with
  | ok envelopes => exact ⟨envelopes, rfl⟩
  | error g =>
    -- a scope without an envelope would be one that names no host
    obtain ⟨p, hp, hfail⟩ := (mapM_eq_error_iff.1 hout).exists_mem
    obtain ⟨v, hv, -⟩ := ha.merged.named p hp
    obtain ⟨host, hhost⟩ := hostOfScope_of_verdict hv
    rw [hostEnvelope, hhost] at hfail
    cases hfail

end Strategy

namespace Holder
variable {ω α : Type} [Wire α]

/-- With something to send, nothing but the transport can fail a merged update. -/
theorem failsByRefusal_of_announces {h : Holder ω α} (hs : h.strategy.Announces) :
    h.FailsByRefusal := by
  intro e site after held changed f happly hfail
  have happlied : (h.apply e).on site =
      (.ok changed, { site with held, tally := site.tally.count changed }) := by
    rw [on_apply, happly]
  rw [update, Op.on_bind_of_ok happlied] at hfail
  cases changed with
  | false => cases hfail
  | true =>
    obtain ⟨envelopes, hout⟩ := hs site.held e (held, true) happly held.fingerprint
    have hannounce := Op.error_of_on_bind_pure hfail
    rw [on_announceHeld hout] at hannounce
    obtain ⟨taken, envelope, rest, world, rfl, hrefuses, rfl⟩ := refuses_of_publish_error hannounce
    exact ⟨taken, envelope, rest, world, hout, hrefuses, rfl⟩

/-- Scopes and fingerprint go together throughout, and calls that fail fail cleanly.

A holder that starts out empty, over any source that gets at the held state only through the holder,
holds scopes with their fingerprint after every run. A call fails with the source, and then leaves the
site as the source did, or fails in merging, and then leaves it as it was. An update of topologies or of
configurations that got past merging fails only because the transport refused an envelope. -/
theorem coherent_throughout (h : Holder ω α) :
    (h.source.Orderly h.strategy → ∀ start : Site ω α, start.held = {} →
      ∀ steps, (h.run steps start).held.Coherent) ∧
    (∀ (c : Call α) (site asked : Site ω α) (f : Fault), (c.ask h).on site = (.error f, asked) →
      (c.perform h).on site = (.error f, asked) ∧ (h.source.Silent → asked.held = site.held)) ∧
    (∀ (e : Event α) (c : Call α) (site : Site ω α) (f : Fault), c = .apply e ∨ c = .update e →
      site.held.apply h.strategy e = .error f → (c.perform h).on site = (.error f, site)) ∧
    (∀ settings, (Strategy.topology settings).Announces ∧
      ∀ k : Holder ω Topology, k.strategy = .topology settings → k.FailsByRefusal) ∧
    (∀ settings, (Strategy.configs settings).Announces ∧
      ∀ k : Holder ω HostConfigs, k.strategy = .configs settings → k.FailsByRefusal) := by
  refine ⟨fun hsource start hstart => run_coherent hsource hstart, ?_, ?_, ?_, ?_⟩
  · intro c site asked f hask
    refine ⟨Call.perform_of_ask hask, fun hsilent => ?_⟩
    have hkeeps := c.ask_preserves hsilent site.held site rfl
    rw [hask] at hkeeps
    exact hkeeps
  · intro e c site f hc herr
    exact Call.perform_of_apply_error herr hc
  · intro settings
    refine ⟨Strategy.announces_topology settings, fun k hk => ?_⟩
    exact failsByRefusal_of_announces (hk ▸ Strategy.announces_topology settings)
  · intro settings
    refine ⟨Strategy.announces_configs settings, fun k hk => ?_⟩
    exact failsByRefusal_of_announces (hk ▸ Strategy.announces_configs settings)

/-- Configurations of host 1 are taken, an event for something that is no host is not, the channel is
closed, new configurations of host 1 are taken but not announced, and host 7 is asked for in vain. -/
def mishaps : List (Step (Surroundings HostConfigs) HostConfigs) := [
  .call (.update (.single "1" { timestamp := 5 } .create)),
  .call (.update (.single "one" {} .create)),
  .outside fun w => { w with channel := w.channel.close },
  .call (.update (.single "1" { timestamp := 6 } .update)),
  .call (.scopeUpdateIfChanged "7" "")]

/-- The holder of configurations, over its table, stays coherent through all of these. -/
theorem coherent_throughout_mishaps :
    let c : Controller := {}
    let after := c.configsHolder.run mishaps (c.siteOf c.configs)
    after.held.Coherent ∧ after.held.scopes.toList = [("1", { timestamp := 6 })] ∧
      after.sent.length = 1 := by
  intro c after
  refine ⟨(coherent_throughout c.configsHolder).1 c.orderly_configs _ rfl mishaps, ?_, ?_⟩
  · decide +kernel
  · decide +kernel

end Holder
end FleetSync
