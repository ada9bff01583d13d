import FleetSync.Proofs.Holder.Coherence

/-!
What a call tells, apart from what it does.

A call comes to two things: what it would do without telling anyone (`Call.quiet`), and then the announcement
of one event or of none (`Call.announces`, `Call.on_perform`). What is announced is the event that was
applied, or the fresh build that took the place of what was held, with the fingerprint held since. Two holders
of one strategy whose sites go together (`Abreast`) do the same and have the same to announce. Where the
transport takes everything (`Flowing`), what is announced goes out as a whole, unless the strategy has nothing
to say of it.
-/
namespace FleetSync
namespace Holder
variable {ω ω' α : Type}

theorem on_announceHeld_eq (h : Holder ω α) (e : Event α) (site : Site ω α) :
    (h.announceHeld e).on site = (h.announce (e.withFingerprint site.held.fingerprint)).on site := by
  rw [announceHeld, Op.on_bind_of_ok (Op.on_get site)]

/-- Envelopes that could be sent are all out then. -/
theorem sent_of_publishes_ok {h : Holder ω α} {envelopes : List Envelope} {site after : Site ω α}
    (hok : (envelopes.forM h.publish).on site = (.ok (), after)) :
    after.sent = site.sent ++ envelopes ∧ after.held = site.held := by
  induction envelopes generalizing site with
  | nil =>
    cases hok
    exact ⟨(List.append_nil _).symm, rfl⟩
  | cons e envelopes ih =>
    obtain ⟨_, next, hpublish, hrest⟩ := Op.of_on_bind_ok hok
    obtain ⟨hsent, hheld⟩ := ih hrest
    rw [on_publish] at hpublish
    cases hsend : h.transport.send e site.world with
    | error f world =>
      rw [hsend] at hpublish
      cases hpublish
    | ok _ world =>
      rw [hsend] at hpublish
      cases hpublish
      exact ⟨by rw [hsent, List.append_assoc]; rfl, hheld⟩

theorem sent_of_announce_ok {h : Holder ω α} {e : Event α} {site after : Site ω α}
    (hok : (h.announce e).on site = (.ok (), after)) :
    ∃ batch, h.strategy.outbound e = .ok batch ∧ after.sent = site.sent ++ batch ∧ after.held = site.held := by
  obtain ⟨batch, between, hout, hpublishes⟩ := Op.of_on_bind_ok hok
  rw [Op.on_ofExcept] at hout
  obtain ⟨hbatch, rfl⟩ := Prod.mk.inj hout
  exact ⟨batch, hbatch, sent_of_publishes_ok hpublishes⟩

/-- An update that succeeds has applied its event and, if that was a change, sent what there is to say. -/
theorem sent_of_update_ok [Wire α] {h : Holder ω α} {e : Event α} {site after : Site ω α} {changed : Bool}
    (hok : (h.update e).on site = (.ok changed, after)) :
    site.held.apply h.strategy e = .ok (after.held, changed) ∧
      ∃ batch, after.sent = site.sent ++ batch ∧
        if changed then h.strategy.outbound (e.withFingerprint after.held.fingerprint) = .ok batch
        else batch = [] := by
  obtain ⟨applied, between, happly, hreport⟩ := Op.of_on_bind_ok hok
  rw [on_apply] at happly
  cases hmerged : site.held.apply h.strategy e with
  | error f =>
    rw [hmerged] at happly
    cases happly
  | ok r =>
    rw [hmerged] at happly
    cases happly
    cases hchanged : r.2 with
    | false =>
      rw [hchanged] at hreport
      cases hreport
      exact ⟨congrArg Except.ok (Prod.ext rfl hchanged), [], (List.append_nil _).symm, rfl⟩
    | true =>
      rw [hchanged] at hreport
      obtain ⟨_, told, hannounce, hdone⟩ := Op.of_on_bind_ok hreport
      cases hdone
      rw [on_announceHeld_eq] at hannounce
      obtain ⟨batch, hout, hsent, hheld⟩ := sent_of_announce_ok hannounce
      refine ⟨congrArg Except.ok (Prod.ext hheld.symm hchanged), batch, hsent, ?_⟩
      rw [hheld]
      exact hout

/-! ### Where all that is sent goes out -/

/-- As long as the surroundings are calm, the transport takes every envelope and the source sends none, and
neither of them disturbs the calm. -/
structure Flowing (h : Holder ω α) (calm : ω → Prop) : Prop where
  takes : ∀ e w, calm w → ∃ w', h.transport.send e w = .ok () w' ∧ calm w'
  asks : ∀ sent, h.source.Preserves fun site => site.sent = sent ∧ calm site.world

theorem Flowing.calm_send {h : Holder ω α} {calm : ω → Prop} (hflow : h.Flowing calm) (e : Envelope) (w : ω)
    (hcalm : calm w) : calm ((h.transport.send e).on w).2 := by
  obtain ⟨w', hsend, hcalm'⟩ := hflow.takes e w hcalm
  rw [Op.on, hsend]
  exact hcalm'

namespace Flowing
variable {h : Holder ω α} {calm : ω → Prop} (hflow : h.Flowing calm) (site : Site ω α)
  (hcalm : calm site.world)
include hflow hcalm

theorem on_publishes (envelopes : List Envelope) :
    ∃ world, calm world ∧ (envelopes.forM h.publish).on site =
      (.ok (), { site with world, sent := site.sent ++ envelopes }) := by
  induction envelopes generalizing site with
  | nil => exact ⟨site.world, hcalm, by rw [List.append_nil]; rfl⟩
  | cons e envelopes ih =>
    obtain ⟨next, hsend, hnext⟩ := hflow.takes e site.world hcalm
    obtain ⟨world, hworld, hrest⟩ := ih { site with world := next, sent := site.sent ++ [e] } hnext
    refine ⟨world, hworld, ?_⟩
    rw [List.forM_eq_forM, List.forM_cons, Op.on_bind, on_publish, hsend]
    rw [List.append_assoc] at hrest
    exact hrest

/-- An announcement goes out as a whole, unless the strategy has nothing to say. -/
theorem on_announceHeld (e : Event α) :
    match h.strategy.outbound (e.withFingerprint site.held.fingerprint) with
    | .ok envelopes => ∃ world, calm world ∧ (h.announceHeld e).on site =
        (.ok (), { site with world, sent := site.sent ++ envelopes })
    | .error f => (h.announceHeld e).on site = (.error f, site) := by
  rw [on_announceHeld_eq, announce]
  cases h.strategy.outbound (e.withFingerprint site.held.fingerprint) with
  | error f => rfl
  | ok envelopes => exact hflow.on_publishes site hcalm envelopes

/-- So does that of a change; without a change there is none. -/
theorem on_announce_if (e : Event α) (changed : Bool) :
    let report : Op (Site ω α) Bool := do
      if changed then h.announceHeld e
      return changed
    match changed, h.strategy.outbound (e.withFingerprint site.held.fingerprint) with
    | false, _ => report.on site = (.ok false, site)
    | true, .ok envelopes => ∃ world, calm world ∧
        report.on site = (.ok true, { site with world, sent := site.sent ++ envelopes })
    | true, .error f => report.on site = (.error f, site) := by
  have hgoes := hflow.on_announceHeld site hcalm e
  cases changed with
  | false => rfl
  | true =>
    cases hout : h.strategy.outbound (e.withFingerprint site.held.fingerprint) with
    | error f =>
      rw [hout] at hgoes
      exact Op.on_bind_of_error hgoes
    | ok envelopes =>
      rw [hout] at hgoes
      obtain ⟨world, hworld, hannounce⟩ := hgoes
      exact ⟨world, hworld, Op.on_bind_of_ok hannounce⟩

end Flowing

/-! ### Calls -/

/-- What is done with a report of change: an announcement, if there was one. -/
theorem on_announce_if (h : Holder ω α) (e : Event α) (changed : Bool) (site : Site ω α) :
    ((do if changed then h.announceHeld e
         return changed : Op (Site ω α) Bool) >>= fun _ => pure ()).on site =
      ((if changed then some (e.withFingerprint site.held.fingerprint) else none).forM
        h.announce).on site := by
  cases changed with
  | false => rfl
  | true =>
    show (((h.announceHeld e) >>= fun _ => pure true) >>= fun _ => pure ()).on site =
      (h.announce (e.withFingerprint site.held.fingerprint)).on site
    rw [bind_assoc, Op.on_bind, on_announceHeld_eq]
    rcases (h.announce (e.withFingerprint site.held.fingerprint)).on site with ⟨f | _, after⟩ <;> rfl

variable [Wire α]

/-- The call that does the same without telling anyone. -/
def Call.quiet : Call α → Call α
  | resync => load
  | update e => apply e
  | c => c

/-- What an event is announced as if what was done with it is reported as a change: itself, with the
fingerprint held since. -/
def stamped (e : Event α) (outcome : Except Fault Bool × Site ω α) : Option (Event α) :=
  match outcome.1 with
  | .ok true => some (e.withFingerprint outcome.2.held.fingerprint)
  | _ => none

/-- The event that a call has to announce, if any: one that changed what is held, or a fresh build that
took its place. -/
def Call.announces (h : Holder ω α) (site : Site ω α) : Call α → Option (Event α)
  | update e => stamped e ((h.apply e).on site)
  | resync =>
    match (h.currentData.on site).1 with
    | .ok current => stamped current (h.load.on site)
    | .error _ => none
  | load | apply _ | scopeUpdateIfChanged _ _ => none

/-- A call does what it would do without telling anyone, and then announces what it has to. -/
theorem Call.on_perform (h : Holder ω α) (c : Call α) (site : Site ω α) :
    (c.perform h).on site =
      (do c.quiet.perform h; (c.announces h site).forM h.announce : Op (Site ω α) Unit).on site := by
  cases c with
  | load | apply e | scopeUpdateIfChanged scope prior =>
    exact congrArg (Op.on · site) (bind_pure_unit (m := Op (Site ω α))).symm
  | update e =>
    show (h.update e >>= fun _ => pure ()).on site =
      (((apply e).perform h) >>= fun _ => ((update e).announces h site).forM h.announce).on site
    rw [announces, Holder.update, bind_assoc]
    rcases happly : (h.apply e).on site with ⟨f | changed, after⟩
    · have hquiet : ((apply e).perform h).on site = (.error f, after) := Op.on_bind_of_error happly
      rw [Op.on_bind_of_error happly, Op.on_bind_of_error hquiet]
    · have hquiet : ((apply e).perform h).on site = (.ok (), after) := Op.on_bind_of_ok happly
      rw [Op.on_bind_of_ok happly, Op.on_bind_of_ok hquiet, on_announce_if]
      cases changed <;> rfl
  | resync =>
    show (h.resync >>= fun _ => pure ()).on site =
      ((load.perform h) >>= fun _ => (resync.announces h site).forM h.announce).on site
    rw [announces, Holder.resync, bind_assoc]
    rcases hdata : h.currentData.on site with ⟨f | current, asked⟩
    · have hload : h.load.on site = (.error f, asked) := Op.on_bind_of_error hdata
      have hquiet : (load.perform h).on site = (.error f, asked) := Op.on_bind_of_error hload
      rw [Op.on_bind_of_error hdata, Op.on_bind_of_error hquiet]
    · rcases hswap : (swap current.scopes : Op (Site ω α) Bool).on asked with ⟨f | moved, after⟩
      · cases hswap
      · have hload : h.load.on site = (.ok moved, after) := (Op.on_bind_of_ok hdata).trans hswap
        have hquiet : (load.perform h).on site = (.ok (), after) := Op.on_bind_of_ok hload
        rw [Op.on_bind_of_ok hdata, bind_assoc, Op.on_bind_of_ok hswap, Op.on_bind_of_ok hquiet,
          on_announce_if, hload]
        cases moved <;> rfl

/-- A call that fails before it has told anyone has nothing to announce. -/
theorem Call.announces_of_error {h : Holder ω α} {c : Call α} {site after : Site ω α} {f : Fault}
    (hfail : (c.quiet.perform h).on site = (.error f, after)) : c.announces h site = none := by
  cases c with
  | load | apply e | scopeUpdateIfChanged scope prior => rfl
  | update e =>
    have happly : (h.apply e).on site = (.error f, after) := Op.error_of_on_bind_pure hfail
    rw [announces, happly]
    rfl
  | resync =>
    have hload : h.load.on site = (.error f, after) := Op.error_of_on_bind_pure hfail
    rw [announces, hload]
    cases (h.currentData.on site).1 <;> rfl

/-- Two holders of one strategy side by side, over a relation between their sites: what is held is the
same at both, what is stored and counted at the one may be so at the other, and the sources agree. -/
structure Abreast (R : Site ω α → Site ω' α → Prop) (h : Holder ω α) (h' : Holder ω' α) : Prop where
  strategy : h'.strategy = h.strategy
  held : ∀ s s', R s s' → s'.held = s.held
  stored : ∀ s s', R s s' → ∀ held, R { s with held } { s' with held }
  counted : ∀ s s', R s s' → ∀ changed,
    R { s with tally := s.tally.count changed } { s' with tally := s'.tally.count changed }
  scopes : Op.Agrees R h.source.scopes h'.source.scopes
  fetch : ∀ scope, Op.Agrees R (h.source.fetch scope) (h'.source.fetch scope)

namespace Abreast
variable {R : Site ω α → Site ω' α → Prop} {h : Holder ω α} {h' : Holder ω' α} (hside : Abreast R h h')
include hside

theorem currentData : Op.Agrees R h.currentData h'.currentData := by
  refine hside.scopes.bind fun scopes => ?_
  refine Op.Agrees.bind (Op.Agrees.mapM (fun scope => ?_) scopes) fun entries => Op.agrees_pure _
  exact (hside.fetch scope).bind fun value => Op.agrees_pure (scope, value)

theorem swap (scopes : OrdMap ScopeKey α) :
    Op.Agrees R (Holder.swap scopes : Op (Site ω α) Bool) (Holder.swap scopes) := by
  intro s s' hR
  show Except.ok (s'.held.swap scopes).2 = Except.ok (s.held.swap scopes).2 ∧
    R { s with held := (s.held.swap scopes).1 } { s' with held := (s'.held.swap scopes).1 }
  rw [hside.held s s' hR]
  exact ⟨rfl, hside.stored s s' hR _⟩

theorem storeFetched (scope : ScopeKey) (value : α) :
    Op.Agrees R (Holder.storeFetched scope value : Op (Site ω α) α) (Holder.storeFetched scope value) := by
  intro s s' hR
  show Except.ok (s'.held.storeFetched scope value).2 = Except.ok (s.held.storeFetched scope value).2 ∧
    R { s with held := (s.held.storeFetched scope value).1 }
      { s' with held := (s'.held.storeFetched scope value).1 }
  rw [hside.held s s' hR]
  exact ⟨rfl, hside.stored s s' hR _⟩

theorem apply (e : Event α) : Op.Agrees R (h.apply e) (h'.apply e) := by
  intro s s' hR
  rw [on_apply, on_apply, hside.strategy, hside.held s s' hR]
  cases s.held.apply h.strategy e with
  | error f => exact ⟨rfl, hR⟩
  | ok r => exact ⟨rfl, hside.stored _ _ (hside.counted _ _ hR r.2) r.1⟩

theorem load : Op.Agrees R h.load h'.load :=
  hside.currentData.bind fun current => hside.swap current.scopes

theorem scopeUpdateIfChanged (scope : ScopeKey) (prior : Fingerprint) :
    Op.Agrees R (h.scopeUpdateIfChanged scope prior) (h'.scopeUpdateIfChanged scope prior) := by
  intro s s' hR
  rw [Holder.scopeUpdateIfChanged, Holder.scopeUpdateIfChanged, Op.on_bind_of_ok (Op.on_get s),
    Op.on_bind_of_ok (Op.on_get s'), hside.held s s' hR]
  cases s.held.scopes.get? scope with
  | some value => exact Op.agrees_pure (Held.scopeAnswer scope value prior) s s' hR
  | none =>
    have hfetch := (hside.fetch scope).bind fun fetched =>
      (hside.storeFetched scope fetched).bind fun value => Op.agrees_pure (Held.scopeAnswer scope value prior)
    exact hfetch s s' hR

theorem quiet (c : Call α) : Op.Agrees R (c.quiet.perform h) (c.quiet.perform h') := by
  cases c with
  | load | resync => exact hside.load.bind fun _ => Op.agrees_pure ()
  | apply e | update e => exact (hside.apply e).bind fun _ => Op.agrees_pure ()
  | scopeUpdateIfChanged scope prior =>
    exact (hside.scopeUpdateIfChanged scope prior).bind fun _ => Op.agrees_pure ()

/-- Both have the same to announce. -/
theorem announces (c : Call α) {s : Site ω α} {s' : Site ω' α} (hR : R s s') :
    c.announces h' s' = c.announces h s := by
  cases c with
  | load | apply e | scopeUpdateIfChanged scope prior => rfl
  | update e =>
    obtain ⟨hr, hafter⟩ := hside.apply e s s' hR
    rw [Call.announces, Call.announces, stamped, stamped, hr, hside.held _ _ hafter]
  | resync =>
    obtain ⟨hr, hafter⟩ := hside.load s s' hR
    rw [Call.announces, Call.announces, (hside.currentData s s' hR).1]
    simp only [stamped, hr, hside.held _ _ hafter]

end Abreast
end Holder

/-! ### The holders of a controller -/

/-- The channel is open and has no budget, and no event is to arrive during a fetch. -/
structure Surroundings.Calm {α : Type} (w : Surroundings α) : Prop where
  isOpen : w.channel.isOpen = true
  budget : w.channel.budget = none
  arrivals : w.table.arrivals = ∅

/-- An open channel without a budget takes every envelope. -/
theorem Surroundings.send_eq {α : Type} {w : Surroundings α} (hopen : w.channel.isOpen = true)
    (hbudget : w.channel.budget = none) (e : Envelope) :
    transport.send e w = .ok () { w with channel := w.channel.count e.payload.kind } := by
  obtain ⟨registry, ⟨isOpen, budget, published⟩, table⟩ := w
  cases hopen
  cases hbudget
  rfl

theorem Surroundings.Calm.takes {α : Type} {w : Surroundings α} (hcalm : w.Calm) (e : Envelope) :
    ∃ w' : Surroundings α, transport.send e w = .ok () w' ∧ w'.Calm :=
  ⟨_, send_eq hcalm.isOpen hcalm.budget e, hcalm.isOpen, hcalm.budget, hcalm.arrivals⟩

/-- A table during whose fetches nothing arrives is only looked at. -/
theorem SourceTable.preserves_source {ω α : Type} [Wire α] (s : Strategy α) (get : ω → SourceTable α)
    (set : SourceTable α → ω → ω) {P : Site ω α → Prop}
    (hnone : ∀ site, P site → (get site.world).arrivals = ∅) : (source s get set).Preserves P where
  scopes _ hp := hp
  fetch scope site hp := by
    have hget : (get site.world).arrivals.get? scope = none := by rw [hnone site hp]; rfl
    simp only [Op.on, source, hget]
    exact Op.preserves_ofExcept _ site hp

theorem Surroundings.preserves_tableSource {α : Type} [Wire α] (s : Strategy α)
    {P : Site (Surroundings α) α → Prop} (hnone : ∀ site, P site → site.world.table.arrivals = ∅) :
    (tableSource s).Preserves P :=
  SourceTable.preserves_source s _ _ hnone

namespace Controller

theorem preserves_topology (c : Controller) {P : Site (Surroundings Topology) Topology → Prop}
    (hnone : ∀ site, P site → site.world.table.arrivals = ∅) : c.topologyHolder.source.Preserves P := by
  show (if c.topologyFromTable then _ else _ : Source _ _).Preserves P
  cases c.topologyFromTable with
  | true => exact Surroundings.preserves_tableSource _ hnone
  | false => exact Source.preserves_ofRegistry _ P

theorem flowing_topology (c : Controller) : c.topologyHolder.Flowing Surroundings.Calm where
  takes e _ hcalm := hcalm.takes e
  asks _ := c.preserves_topology fun _ hp => hp.2.arrivals

theorem flowing_configs (c : Controller) : c.configsHolder.Flowing Surroundings.Calm where
  takes e _ hcalm := hcalm.takes e
  asks _ := Surroundings.preserves_tableSource (.configs c.settings.configs) fun _ hp => hp.2.arrivals

theorem silentWhile_configs (c : Controller) : c.configsHolder.source.SilentWhile Surroundings.Calm :=
  fun _ => Surroundings.preserves_tableSource (.configs c.settings.configs) fun _ hp => hp.2.arrivals

end Controller
end FleetSync
