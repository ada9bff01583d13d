import FleetSync.Proofs.Holder.Following
import FleetSync.Proofs.Holder.Hosts

/-!
What hosts are told, replayed, gives what is held for them.

Configurations are replaced as a whole, so merging an event comes to writing its payloads one after another
(`Held.mergeScopes_configs`). What is sent for it has one envelope for each of them, and hearing that envelope
is the same write (`Held.replay_outbound`). Hence each update that is announced is replayed by what it sends
(`Holder.replayed_update`), and one that is not leaves both as they were.
-/
namespace FleetSync

namespace Held
variable {α : Type}

/-- Sets a scope to a payload or, for a deletion, drops it. -/
def write (type : EventType) (scopes : OrdMap ScopeKey α) (p : ScopeKey × α) : OrdMap ScopeKey α :=
  if type = .delete then scopes.erase p.1 else scopes.insert p.1 p.2

theorem get?_write (type : EventType) (scopes : OrdMap ScopeKey α) (p : ScopeKey × α) (x : ScopeKey) :
    (write type scopes p).get? x =
      if x = p.1 then if type = .delete then none else some p.2 else scopes.get? x := by
  rw [write]
  split
  · rw [OrdMap.get?_erase]
  · rw [OrdMap.get?_insert]

/-- Does to some scopes what an envelope of configurations tells of them. -/
def hear (scopes : OrdMap ScopeKey HostConfigs) (e : Envelope) : OrdMap ScopeKey HostConfigs :=
  match e.payload with
  | .configs event => event.scopes.toList.foldl (write event.type) scopes
  | _ => scopes

/-- Does to some scopes what envelopes tell of them, one after another. -/
def replay (told : List Envelope) (scopes : OrdMap ScopeKey HostConfigs) : OrdMap ScopeKey HostConfigs :=
  told.foldl hear scopes

theorem replay_append (first second : List Envelope) (scopes : OrdMap ScopeKey HostConfigs) :
    replay (first ++ second) scopes = replay second (replay first scopes) :=
  List.foldl_append

/-- Carrying out the verdict on a payload that replaces what is held is writing it. -/
theorem settle_replaceScope {scopes : OrdMap ScopeKey α} {p : ScopeKey × α} {type : EventType} {v : Verdict α}
    (h : Strategy.replaceScope p.1 (scopes.get? p.1) p.2 type = .ok v) :
    settle scopes p.1 v = write type scopes p ∧ v.isChange = true := by
  cases hheld : scopes.get? p.1 with
  | none =>
    rw [hheld] at h
    cases type <;> cases h <;> exact ⟨rfl, rfl⟩
  | some old =>
    have hcontains : scopes.contains p.1 = true := by rw [OrdMap.contains, hheld]; rfl
    rw [hheld] at h
    cases type with
    | delete =>
      cases h
      exact ⟨rfl, rfl⟩
    | create | update =>
      cases h
      exact ⟨if_pos hcontains, rfl⟩

section
variable {settings : ConfigsSettings}

theorem mergeScope_configs {type : EventType} {acc r : OrdMap ScopeKey HostConfigs × Bool}
    {p : ScopeKey × HostConfigs} (h : mergeScope (.configs settings) type acc p = .ok r) :
    r = (write type acc.1 p, true) := by
  rw [mergeScope_eq] at h
  obtain ⟨v, hv, rfl⟩ := map_eq_ok_iff.1 h
  obtain ⟨-, -, hreplace⟩ := bind_eq_ok_iff.1 hv
  obtain ⟨hsettle, hchange⟩ := settle_replaceScope hreplace
  rw [hsettle, hchange, Bool.or_true]

/-- Merging an event is writing its payloads. -/
theorem mergeScopes_configs {e : Event HostConfigs} {scopes : OrdMap ScopeKey HostConfigs}
    {r : OrdMap ScopeKey HostConfigs × Bool} (h : mergeScopes (.configs settings) e scopes = .ok r) :
    r.1 = e.scopes.toList.foldl (write e.type) scopes := by
  suffices hfold : ∀ (entries : List (ScopeKey × HostConfigs)) (acc : OrdMap ScopeKey HostConfigs × Bool),
      entries.foldlM (mergeScope (.configs settings) e.type) acc = .ok r →
        r.1 = entries.foldl (write e.type) acc.1 from hfold e.scopes.toList (scopes, false) h
  intro entries
  induction entries with
  | nil =>
    intro acc hacc
    cases hacc
    rfl
  | cons p entries ih =>
    intro acc hacc
    rw [List.foldlM_cons] at hacc
    obtain ⟨next, hnext, hrest⟩ := bind_eq_ok_iff.1 hacc
    rw [List.foldl_cons, ih next hrest, mergeScope_configs hnext]

end
end Held

/-- The envelope tells one host of its own: it has one scope, is for the host that the scope is a number of,
and bears the fingerprint of its payload. -/
def Envelope.TellsOwn (topic : String) (e : Envelope) : Prop :=
  ∃ host scope payload type, Decimal.int64? scope.toList = some host ∧
    e = ⟨.host host topic,
      .configs ((Event.single scope payload type).withFingerprint (scopeFingerprint payload))⟩

theorem Strategy.hostOfScope_eq_ok_iff {scope : ScopeKey} {host : HostId} :
    hostOfScope scope = .ok host ↔ Decimal.int64? scope.toList = some host := by
  rw [hostOfScope]
  cases Decimal.int64? scope.toList <;> simp

namespace Held
variable {settings : ConfigsSettings} {e : Event HostConfigs} {batch : List Envelope}

/-- There is one envelope for each payload, and it tells of that payload. -/
theorem forall₂_outbound (h : (Strategy.configs settings).outbound e = .ok batch) :
    List.Forall₂ (fun p envelope => ∃ host, Decimal.int64? p.1.toList = some host ∧
      envelope = ⟨.host host settings.destination, .configs
        ((Event.single p.1 p.2 e.type).withFingerprint (scopeFingerprint p.2))⟩) e.scopes.toList batch := by
  refine (mapM_eq_ok_iff.1 h).imp fun p envelope henvelope => ?_
  obtain ⟨host, hhost, heq⟩ := bind_eq_ok_iff.1 henvelope
  cases heq
  exact ⟨host, Strategy.hostOfScope_eq_ok_iff.1 hhost, rfl⟩

theorem tellsOwn_of_outbound (h : (Strategy.configs settings).outbound e = .ok batch) :
    ∀ envelope ∈ batch, envelope.TellsOwn settings.destination := by
  intro envelope henvelope
  obtain ⟨p, -, host, hhost, heq⟩ := exists_of_mem_right (forall₂_outbound h) henvelope
  exact ⟨host, p.1, p.2, e.type, hhost, heq⟩

/-- Hearing all that is sent for an event is writing its payloads. -/
theorem replay_outbound (h : (Strategy.configs settings).outbound e = .ok batch)
    (scopes : OrdMap ScopeKey HostConfigs) :
    replay batch scopes = e.scopes.toList.foldl (write e.type) scopes := by
  have hall := forall₂_outbound h
  clear h
  generalize e.scopes.toList = entries at hall
  induction hall generalizing scopes with
  | nil => rfl
  | cons henvelope _ ih =>
    obtain ⟨host, -, rfl⟩ := henvelope
    exact ih _

end Held

namespace Holder
variable {ω : Type}

/-- What was sent from one site to the other, replayed, turns what is held at the one into what is held at the
other, and each envelope of it tells a host of its own. -/
def Replayed (topic : String) (before after : Site ω HostConfigs) : Prop :=
  ∃ told, after.sent = before.sent ++ told ∧
    after.held.scopes = Held.replay told before.held.scopes ∧ ∀ e ∈ told, e.TellsOwn topic

namespace Replayed
variable {topic : String} {s t u : Site ω HostConfigs}

/-- Nothing was sent, and nothing held has changed. -/
theorem of_eq (hheld : t.held = s.held) (hsent : t.sent = s.sent) : Replayed topic s t :=
  ⟨[], by rw [hsent, List.append_nil], by rw [hheld]; rfl, List.forall_mem_nil _⟩

theorem trans (hst : Replayed topic s t) (htu : Replayed topic t u) : Replayed topic s u := by
  obtain ⟨told, hsent, hheld, hown⟩ := hst
  obtain ⟨told', hsent', hheld', hown'⟩ := htu
  refine ⟨told ++ told', ?_, ?_, List.forall_mem_append.2 ⟨hown, hown'⟩⟩
  · rw [hsent', hsent, List.append_assoc]
  · rw [hheld', hheld, Held.replay_append]

end Replayed

section
variable {h : Holder ω HostConfigs} {settings : ConfigsSettings} (hstrategy : h.strategy = .configs settings)
  {calm : ω → Prop} (hflow : h.Flowing calm)
include hstrategy hflow

/-- An update is replayed by what it sends, whether or not it succeeds. -/
theorem replayed_update (e : Event HostConfigs) {site : Site ω HostConfigs} (hcalm : calm site.world) :
    Replayed settings.destination site ((h.update e).on site).2 ∧ calm ((h.update e).on site).2.world := by
  rw [update, Op.on_bind, on_apply, hstrategy]
  cases happly : site.held.apply (.configs settings) e with
  | error f => exact ⟨.of_eq rfl rfl, hcalm⟩
  | ok r =>
    obtain ⟨next, changed⟩ := r
    cases changed with
    | false => exact ⟨.of_eq (Held.eq_of_apply_unchanged happly) rfl, hcalm⟩
    | true =>
      obtain ⟨batch, hout⟩ :=
        Strategy.announces_configs settings site.held e (next, true) happly next.fingerprint
      have hgoes := hflow.on_announce_if { site with held := next, tally := site.tally.count true } hcalm e true
      rw [hstrategy, hout] at hgoes
      obtain ⟨world, hworld, hreport⟩ := hgoes
      have hafter := congrArg Prod.snd hreport
      refine ⟨⟨batch, congrArg Site.sent hafter, ?_, Held.tellsOwn_of_outbound hout⟩, ?_⟩
      · rw [Held.replay_outbound hout]
        exact (congrArg (·.held.scopes) hafter).trans
          (Held.mergeScopes_configs (Held.mergeScopes_of_apply happly))
      · exact (congrArg Site.world hafter).symm ▸ hworld

variable (hsilent : h.source.SilentWhile calm)
include hsilent

/-- So is every call that tells hosts. -/
theorem replayed_push (p : Push) {site : Site ω HostConfigs} (hcalm : calm site.world) :
    Replayed settings.destination site ((p.perform h).on site).2 ∧ calm ((p.perform h).on site).2.world := by
  let P (now : Site ω HostConfigs) : Prop := Replayed settings.destination site now ∧ calm now.world
  have hupdate : ∀ e, (h.update e).Preserves P := by
    rintro e now ⟨hnow, hcalm⟩
    obtain ⟨hnext, hcalm'⟩ := replayed_update hstrategy hflow e hcalm
    exact ⟨hnow.trans hnext, hcalm'⟩
  have hfetch : ∀ scope, (h.source.fetch scope).Preserves P := by
    rintro scope now ⟨hnow, hcalm⟩
    have hheld := (hsilent now.held).fetch scope now ⟨rfl, hcalm⟩
    have hsent := (hflow.asks now.sent).fetch scope now ⟨rfl, hcalm⟩
    exact ⟨hnow.trans (.of_eq hheld.1 hsent.1), hheld.2⟩
  exact p.perform_preserves hfetch hupdate site ⟨.of_eq rfl rfl, hcalm⟩

end

/-- The step tells hosts, or is something outside that leaves the surroundings calm. -/
def HostStep.Pushes (calm : ω → Prop) : HostStep ω → Prop
  | call (.push _) => True
  | call _ => False
  | outside change => ∀ w, calm w → calm (change w)

/-- What hosts are told of configurations, replayed over what was held for them, gives what is held for them.

Whatever was held, the calls are any that tell hosts, with any events, any registry and any source that leaves
what is held alone, whether or not they fail, and other things may happen around them. Everything that is sent
is taken. Then replaying what was sent in the course of these calls, in the order in which it was sent, over
what was held in the beginning gives what is held in the end. Each envelope has one scope, is for the host
that the scope is a number of, and bears the fingerprint of its own payload. -/
theorem log_replays_held (h : Holder ω HostConfigs) {settings : ConfigsSettings}
    (hstrategy : h.strategy = .configs settings) {calm : ω → Prop} (hflow : h.Flowing calm)
    (hsilent : h.source.SilentWhile calm) (start : Site ω HostConfigs) (hcalm : calm start.world)
    (steps : List (HostStep ω)) (hsteps : ∀ step ∈ steps, step.Pushes calm) :
    let after := h.runHosts steps start
    ∃ told : List Envelope, after.sent = start.sent ++ told ∧
      after.held.scopes = Held.replay told start.held.scopes ∧
      ∀ e ∈ told, ∃ host scope payload type, Decimal.int64? scope.toList = some host ∧
        e = ⟨.host host settings.destination,
          .configs ((Event.single scope payload type).withFingerprint (scopeFingerprint payload))⟩ := by
  suffices hrun : Replayed settings.destination start (h.runHosts steps start) from hrun
  induction steps generalizing start with
  | nil => exact .of_eq rfl rfl
  | cons step steps ih =>
    obtain ⟨hstep, hrest⟩ := List.forall_mem_cons.1 hsteps
    obtain ⟨hreplayed, hnext⟩ : Replayed settings.destination start (step.next h start) ∧
        calm (step.next h start).world := by
      cases step with
      | outside change => exact ⟨.of_eq rfl rfl, hstep start.world hcalm⟩
      | call c =>
        cases c with
        | push p => exact replayed_push hstrategy hflow hsilent p hcalm
        | _ => exact hstep.elim
    exact hreplayed.trans (ih (step.next h start) hnext hrest)

/-- Host 3 is updated, two hosts are created at once, an event that names no host is refused, host 7 is
refreshed together with host 9, whose snapshot cannot be fetched, and then alone, and host 3 is removed. -/
def pushing : List (HostStep (Surroundings HostConfigs)) := [
  .call (.push (.updateHost 3 { timestamp := 1 })),
  .call (.push (.update ((Event.single "7" { timestamp := 2 } .create).withScope "8" { timestamp := 3 }))),
  .call (.push (.update ((Event.single "7" { timestamp := 4 } .update).withScope "x" {}))),
  .outside fun w => { w with table := { w.table with values := w.table.values.insert "7" { timestamp := 5 } } },
  .call (.push (.refreshHosts {} 1 [7, 9])),
  .call (.push (.refreshHosts {} 1 [7])),
  .call (.push (.removeHost 3))]

/-- The envelopes of all that are replayed by the controller's hosts. -/
theorem log_replays_held_pushing :
    let c : Controller := {}
    let start : Site (Surroundings HostConfigs) HostConfigs :=
      { c.siteOf c.configs with held := .ofScopes ((∅ : OrdMap ScopeKey HostConfigs).insert "3" {}) }
    let after := c.configsHolder.runHosts pushing start
    after.held.scopes = Held.replay after.sent start.held.scopes ∧
      after.held.scopes.toList = [("7", { timestamp := 5 }), ("8", { timestamp := 3 })] ∧
      after.sent.length = 5 := by
  intro c start after
  have hcalm : start.world.Calm := ⟨rfl, rfl, rfl⟩
  have hsteps : ∀ step ∈ pushing, step.Pushes Surroundings.Calm := by
    simp only [pushing, List.forall_mem_cons]
    exact ⟨trivial, trivial, trivial, fun w hw => ⟨hw.isOpen, hw.budget, hw.arrivals⟩, trivial, trivial,
      trivial, List.forall_mem_nil _⟩
  obtain ⟨told, hsent, hheld, -⟩ :=
    log_replays_held c.configsHolder rfl c.flowing_configs c.silentWhile_configs start hcalm pushing hsteps
  have htold : after.sent = told := hsent
  refine ⟨?_, by decide +kernel, by decide +kernel⟩
  rw [htold]
  exact hheld

end Holder
end FleetSync
