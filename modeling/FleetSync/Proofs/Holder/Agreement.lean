import FleetSync.Proofs.Holder.Discretion
import FleetSync.Proofs.Holder.Replaying

/-!
What is pushed agrees with what is answered to a poll.

Where the transport takes everything, what a call sends is what its strategy has to say of the events that it
tells (`Holder.Tells`), each stamped with the fingerprint that was just stored, and a call that reports no
change or fails tells none (`Holder.Call.tells`). So it is for a refresh, update by update, and for whole runs.
The stamp of a broadcast is the fingerprint of the state, so a poll with it is up to date right after the call.
The stamp of what a host is told is that of its payload alone, so at any later time a poll with it is up to
date exactly if this payload is what is held for the host.
-/
namespace FleetSync.Holder

/-! ### What is told -/

section
variable {ω α : Type}

/-- What was sent from one site to the other is what there is to say of the events, one after another. -/
def Tells (h : Holder ω α) (events : List (Event α)) (before after : Site ω α) : Prop :=
  ∃ batches, List.Forall₂ (fun e batch => h.strategy.outbound e = .ok batch) events batches ∧
    after.sent = before.sent ++ batches.flatten

namespace Tells
variable {h : Holder ω α} {first second : List (Event α)} {s t u : Site ω α}

theorem nil (hsent : t.sent = s.sent) : h.Tells [] s t :=
  ⟨[], .nil, by rw [hsent, List.flatten_nil, List.append_nil]⟩

theorem append (hst : h.Tells first s t) (htu : h.Tells second t u) : h.Tells (first ++ second) s u := by
  obtain ⟨batches, hall, hsent⟩ := hst
  obtain ⟨batches', hall', hsent'⟩ := htu
  refine ⟨batches ++ batches', List.rel_append hall hall', ?_⟩
  rw [hsent', hsent, List.flatten_append, List.append_assoc]

end Tells

/-- What sends nothing tells nothing. -/
theorem tells_nothing {β : Type} {h : Holder ω α} {calm : ω → Prop} {op : Op (Site ω α) β} {site : Site ω α}
    (hop : op.Preserves fun now => now.sent = site.sent ∧ calm now.world) (hcalm : calm site.world) :
    h.Tells [] site (op.on site).2 ∧ calm (op.on site).2.world := by
  obtain ⟨hsent, hcalm'⟩ := hop site ⟨rfl, hcalm⟩
  exact ⟨.nil hsent, hcalm'⟩

/-- The announcement of a change tells the event; without a change nothing is told. -/
theorem Flowing.tells_announce_if {h : Holder ω α} {calm : ω → Prop} (hflow : h.Flowing calm) (e : Event α)
    (changed : Bool) (site : Site ω α) (hcalm : calm site.world) :
    let outcome := (do if changed then h.announceHeld e
                       return changed : Op (Site ω α) Bool).on site
    h.Tells (stamped e outcome).toList site outcome.2 ∧ calm outcome.2.world := by
  intro outcome
  have hgoes := hflow.on_announce_if site hcalm e changed
  cases changed with
  | false => exact ⟨.nil rfl, hcalm⟩
  | true =>
    cases hout : h.strategy.outbound (e.withFingerprint site.held.fingerprint) with
    | error f =>
      rw [hout] at hgoes
      have houtcome : outcome = (.error f, site) := hgoes
      rw [houtcome]
      exact ⟨.nil rfl, hcalm⟩
    | ok batch =>
      rw [hout] at hgoes
      obtain ⟨world, hworld, hreport⟩ := hgoes
      have houtcome : outcome = (.ok true, { site with world, sent := site.sent ++ batch }) := hreport
      rw [houtcome]
      exact ⟨⟨[batch], .cons hout .nil, by rw [List.flatten_singleton]⟩, hworld⟩

variable [Wire α]

/-- The event that a call tells, if it reports a change: the one it applied or built, with the fingerprint that
it stored. -/
def Call.told (h : Holder ω α) (site : Site ω α) : Call α → List (Event α)
  | update e => (stamped e ((h.update e).on site)).toList
  | resync =>
    match (h.currentData.on site).1 with
    | .ok current => (stamped current (h.resync.on site)).toList
    | .error _ => []
  | load | apply _ | scopeUpdateIfChanged _ _ => []

/-- What is told by updates, one after another, up to the first that fails. -/
def toldEach (h : Holder ω α) : List (Event α) → Site ω α → List (Event α)
  | [], _ => []
  | e :: events, site =>
    (stamped e ((h.update e).on site)).toList ++
      match (h.update e).on site with
      | (.ok _, after) => toldEach h events after
      | (.error _, _) => []

theorem Call.snd_on_update (h : Holder ω α) (e : Event α) (site : Site ω α) :
    (((update e).perform h).on site).2 = ((h.update e).on site).2 :=
  Op.snd_on_bind_pure ..

theorem Call.snd_on_resync (h : Holder ω α) (site : Site ω α) :
    ((resync.perform h).on site).2 = (h.resync.on site).2 :=
  Op.snd_on_bind_pure ..

section
variable {h : Holder ω α} {calm : ω → Prop} (hflow : h.Flowing calm)
include hflow

theorem tells_update (e : Event α) {site : Site ω α} (hcalm : calm site.world) :
    h.Tells (stamped e ((h.update e).on site)).toList site ((h.update e).on site).2 ∧
      calm ((h.update e).on site).2.world := by
  cases happly : site.held.apply h.strategy e with
  | error f =>
    have happlied : (h.apply e).on site = (.error f, site) := by rw [on_apply, happly]
    rw [update, Op.on_bind_of_error happlied]
    exact ⟨.nil rfl, hcalm⟩
  | ok r =>
    have happlied : (h.apply e).on site =
        (.ok r.2, { site with held := r.1, tally := site.tally.count r.2 }) := by rw [on_apply, happly]
    rw [update, Op.on_bind_of_ok happlied]
    exact hflow.tells_announce_if e r.2 _ hcalm

theorem tells_resync {site : Site ω α} (hcalm : calm site.world) :
    h.Tells (Call.resync.told h site) site (h.resync.on site).2 ∧ calm (h.resync.on site).2.world := by
  obtain ⟨hsent, hasked⟩ := currentData_preserves (hflow.asks site.sent) site ⟨rfl, hcalm⟩
  rw [Call.told]
  rcases hdata : h.currentData.on site with ⟨f | current, asked⟩ <;> rw [hdata] at hsent hasked
  · rw [resync, Op.on_bind_of_error hdata]
    exact ⟨.nil hsent, hasked⟩
  · rw [on_resync_of_build hdata]
    obtain ⟨⟨batches, hall, hsent'⟩, hworld⟩ :=
      hflow.tells_announce_if current (asked.held.swap current.scopes).2
        { asked with held := (asked.held.swap current.scopes).1 } hasked
    exact ⟨⟨batches, hall, hsent'.trans (congrArg (· ++ batches.flatten) hsent)⟩, hworld⟩

/-- A call sends what there is to say of what it tells. -/
theorem Call.tells (c : Call α) {site : Site ω α} (hcalm : calm site.world) :
    h.Tells (c.told h site) site ((c.perform h).on site).2 ∧ calm ((c.perform h).on site).2.world := by
  have hasked := hflow.asks site.sent
  cases c with
  | update e =>
    rw [snd_on_update]
    exact tells_update hflow e hcalm
  | resync =>
    rw [snd_on_resync]
    exact tells_resync hflow hcalm
  | load =>
    have hload := h.load_preserves_outside (Q := fun sent w => sent = site.sent ∧ calm w) hasked
    exact tells_nothing (hload.bind fun _ => Op.preserves_pure ()) hcalm
  | apply e =>
    have happly := h.apply_preserves_outside (Q := fun sent w => sent = site.sent ∧ calm w) e
    exact tells_nothing (happly.bind fun _ => Op.preserves_pure ()) hcalm
  | scopeUpdateIfChanged scope prior =>
    have hscope := h.scopeUpdateIfChanged_preserves_outside
      (Q := fun sent w => sent = site.sent ∧ calm w) hasked scope prior
    exact tells_nothing (hscope.bind fun _ => Op.preserves_pure ()) hcalm

/-- Updates, one after another, send what there is to say of what they tell. -/
theorem tells_each (events : List (Event α)) {site : Site ω α} (hcalm : calm site.world) :
    h.Tells (h.toldEach events site) site ((events.mapM h.update).on site).2 ∧
      calm ((events.mapM h.update).on site).2.world := by
  induction events generalizing site with
  | nil => exact ⟨.nil rfl, hcalm⟩
  | cons e events ih =>
    obtain ⟨hfirst, hcalm'⟩ := tells_update hflow e hcalm
    rw [toldEach, List.mapM_cons]
    rcases hupdate : (h.update e).on site with ⟨f | changed, after⟩ <;> rw [hupdate] at hfirst hcalm'
    · rw [Op.on_bind_of_error hupdate]
      exact ⟨hfirst.append (.nil rfl), hcalm'⟩
    · obtain ⟨hrest, hcalm''⟩ := ih hcalm'
      rw [Op.on_bind_of_ok hupdate, Op.snd_on_bind_pure]
      exact ⟨hfirst.append hrest, hcalm''⟩

end
end

/-! ### Topologies -/

section
variable {ω : Type}

/-- What is told when something happens to a holder of topologies. -/
def Move.told (h : Holder ω Topology) (site : Site ω Topology) : Move ω → List (Event Topology)
  | call c => c.told h site
  | currentData | fullSnapshot _ | poll _ | outside _ => []

/-- What is told in a course of such events. -/
def told (h : Holder ω Topology) : List (Move ω) → Site ω Topology → List (Event Topology)
  | [], _ => []
  | move :: moves, site => move.told h site ++ told h moves (move.next h site)

variable {h : Holder ω Topology} {calm : ω → Prop} (hflow : h.Flowing calm)
include hflow

theorem Move.tells (move : Move ω) (hmove : ∀ change, move = .outside change → ∀ w, calm w → calm (change w))
    {site : Site ω Topology} (hcalm : calm site.world) :
    h.Tells (move.told h site) site (move.next h site) ∧ calm (move.next h site).world := by
  cases move with
  | call c => exact c.tells hflow hcalm
  | currentData => exact tells_nothing (currentData_preserves (hflow.asks site.sent)) hcalm
  | fullSnapshot scope => exact tells_nothing ((hflow.asks site.sent).fetch scope) hcalm
  | poll prior =>
    rw [next, on_agentUpdateIfChanged]
    exact ⟨.nil rfl, hcalm⟩
  | outside change => exact ⟨.nil rfl, hmove change rfl site.world hcalm⟩

theorem tells_course {moves : List (Move ω)}
    (hmoves : ∀ change, .outside change ∈ moves → ∀ w, calm w → calm (change w)) {site : Site ω Topology}
    (hcalm : calm site.world) : h.Tells (h.told moves site) site (h.course moves site) := by
  induction moves generalizing site with
  | nil => exact .nil rfl
  | cons move moves ih =>
    obtain ⟨hfirst, hcalm'⟩ :=
      move.tells hflow (fun change hchange => hmoves change (hchange ▸ List.mem_cons_self)) hcalm
    exact hfirst.append (ih (fun change hchange => hmoves change (List.mem_cons_of_mem _ hchange)) hcalm')

end

/-! ### Configurations -/

section
variable {ω : Type}

/-- The updates that a refresh comes to. -/
def refreshes (fetched : List (HostId × HostConfigs)) : List (Event HostConfigs) :=
  fetched.map fun p => .single (Decimal.idText p.1) p.2 .update

/-- What a call that tells hosts tells them. -/
def Push.told (h : Holder ω HostConfigs) (site : Site ω HostConfigs) : Push → List (Event HostConfigs)
  | update e => (Call.update e).told h site
  | updateHost host configs => (Call.update (.single (Decimal.idText host) configs .update)).told h site
  | removeHost host => (Call.update (.single (Decimal.idText host) h.strategy.emptyValue .delete)).told h site
  | refreshHosts registry cluster hosts =>
    match (h.fetchTargets registry cluster hosts).on site with
    | (.ok fetched, asked) => h.toldEach (refreshes fetched) asked
    | (.error _, _) => []

/-- What hosts are told in a step. -/
def HostStep.told (h : Holder ω HostConfigs) (site : Site ω HostConfigs) : HostStep ω → List (Event HostConfigs)
  | call (.push p) => p.told h site
  | call _ | outside _ => []

/-- What hosts are told in a run. -/
def toldHosts (h : Holder ω HostConfigs) : List (HostStep ω) → Site ω HostConfigs → List (Event HostConfigs)
  | [], _ => []
  | step :: steps, site => step.told h site ++ toldHosts h steps (step.next h site)

variable {h : Holder ω HostConfigs} {calm : ω → Prop} (hflow : h.Flowing calm)
include hflow

theorem tells_refresh (registry : Registry) (cluster : ClusterId) (hosts : List HostId)
    {site : Site ω HostConfigs} (hcalm : calm site.world) :
    h.Tells (Push.told h site (.refreshHosts registry cluster hosts)) site
        ((h.refreshHosts registry cluster hosts).on site).2 ∧
      calm ((h.refreshHosts registry cluster hosts).on site).2.world := by
  have hfetch := fetchTargets_preserves (hflow.asks site.sent).fetch registry cluster hosts
  obtain ⟨hsent, hasked⟩ := hfetch site ⟨rfl, hcalm⟩
  rw [Push.told, refreshHosts_eq]
  rcases hfetched : (h.fetchTargets registry cluster hosts).on site with ⟨f | fetched, asked⟩ <;>
    rw [hfetched] at hsent hasked
  · rw [Op.on_bind_of_error hfetched]
    exact ⟨.nil hsent, hasked⟩
  · have hpass : (fetched.mapM fun p => h.updateHost p.1 p.2) = (refreshes fetched).mapM h.update := by
      rw [refreshes, List.mapM_map]
      rfl
    obtain ⟨⟨batches, hall, hsent'⟩, hcalm'⟩ := tells_each hflow (refreshes fetched) hasked
    rw [Op.on_bind_of_ok hfetched, Op.snd_on_bind_pure, hpass]
    exact ⟨⟨batches, hall, hsent'.trans (congrArg (· ++ batches.flatten) hsent)⟩, hcalm'⟩

theorem Push.tells (p : Push) {site : Site ω HostConfigs} (hcalm : calm site.world) :
    h.Tells (p.told h site) site ((p.perform h).on site).2 ∧ calm ((p.perform h).on site).2.world := by
  cases p with
  | update e => exact (Call.update e).tells hflow hcalm
  | updateHost host configs =>
    exact (Call.update (.single (Decimal.idText host) configs .update)).tells hflow hcalm
  | removeHost host =>
    exact (Call.update (.single (Decimal.idText host) h.strategy.emptyValue .delete)).tells hflow hcalm
  | refreshHosts registry cluster hosts =>
    have hafter : (((refreshHosts registry cluster hosts).perform h).on site).2 =
        ((h.refreshHosts registry cluster hosts).on site).2 := Op.snd_on_bind_pure ..
    rw [hafter]
    exact tells_refresh hflow registry cluster hosts hcalm

theorem HostStep.tells (step : HostStep ω)
    (hstep : ∀ change, step = .outside change → ∀ w, calm w → calm (change w)) {site : Site ω HostConfigs}
    (hcalm : calm site.world) :
    h.Tells (step.told h site) site (step.next h site) ∧ calm (step.next h site).world := by
  have hasked := hflow.asks site.sent
  cases step with
  | outside change => exact ⟨.nil rfl, hstep change rfl site.world hcalm⟩
  | call c =>
    cases c with
    | push p => exact p.tells hflow hcalm
    | apply e => exact (Call.apply e).tells hflow hcalm
    | load => exact Call.load.tells hflow hcalm
    | currentData =>
      exact tells_nothing ((currentData_preserves hasked).bind fun _ => Op.preserves_pure ()) hcalm
    | poll host prior => exact (Call.scopeUpdateIfChanged (Decimal.idText host) prior).tells hflow hcalm

theorem tells_runHosts {steps : List (HostStep ω)}
    (hsteps : ∀ change, .outside change ∈ steps → ∀ w, calm w → calm (change w)) {site : Site ω HostConfigs}
    (hcalm : calm site.world) : h.Tells (h.toldHosts steps site) site (h.runHosts steps site) := by
  induction steps generalizing site with
  | nil => exact .nil rfl
  | cons step steps ih =>
    obtain ⟨hfirst, hcalm'⟩ :=
      step.tells hflow (fun change hchange => hsteps change (hchange ▸ List.mem_cons_self)) hcalm
    exact hfirst.append (ih (fun change hchange => hsteps change (List.mem_cons_of_mem _ hchange)) hcalm')

end

/-! ### Polls -/

section
variable {ω : Type}

theorem eq_of_mem_stamped {α : Type} {e told : Event α} {outcome : Except Fault Bool × Site ω α}
    (h : told ∈ (stamped e outcome).toList) : told = e.withFingerprint outcome.2.held.fingerprint := by
  rw [stamped] at h
  split at h
  next => exact List.mem_singleton.1 h
  next => cases h

/-- What a call tells bears the fingerprint that is held after it. -/
theorem Call.fingerprint_of_told {α : Type} [Wire α] {h : Holder ω α} {c : Call α} {site : Site ω α}
    {e : Event α} (he : e ∈ c.told h site) :
    e.fingerprint = some ((c.perform h).on site).2.held.fingerprint := by
  cases c with
  | update d =>
    rw [eq_of_mem_stamped he, snd_on_update]
    rfl
  | resync =>
    rw [told] at he
    split at he
    next current _ =>
      rw [eq_of_mem_stamped he, snd_on_resync]
      rfl
    next => cases he
  | load | apply d | scopeUpdateIfChanged scope prior => cases he

/-- What there is to say of topology events is one broadcast of each. -/
theorem flatten_outbound_topology {settings : TopologySettings} {events : List (Event Topology)}
    {batches : List (List Envelope)}
    (hall : List.Forall₂ (fun e batch => (Strategy.topology settings).outbound e = .ok batch) events batches) :
    batches.flatten = events.map fun e => announcement settings e.agentCopy := by
  induction hall with
  | nil => rfl
  | cons hbatch _ ih =>
    cases hbatch
    rw [List.flatten_cons, ih]
    rfl

/-- Right after a call, a poll with the fingerprint of what it broadcast is up to date. -/
theorem noOp_of_broadcast {h : Holder ω Topology} {settings : TopologySettings}
    (hstrategy : h.strategy = .topology settings) {calm : ω → Prop} (hflow : h.Flowing calm) (c : Call Topology)
    {site : Site ω Topology} (hcalm : calm site.world) :
    let after := ((c.perform h).on site).2
    after.sent = site.sent ++ (c.told h site).map (fun e => announcement settings e.agentCopy) ∧
      ∀ e ∈ c.told h site, ∃ f, e.agentCopy.fingerprint = some f ∧
        (h.agentUpdateIfChanged f).on after = (.ok .noOp, after) := by
  intro after
  obtain ⟨batches, hall, hsent⟩ := (c.tells hflow hcalm).1
  rw [hstrategy] at hall
  refine ⟨by rw [hsent, flatten_outbound_topology hall], fun e he => ?_⟩
  have hfingerprint := Call.fingerprint_of_told he
  exact ⟨after.held.fingerprint, hfingerprint, h.on_agentUpdateIfChanged_of_eq after⟩

/-- A host with the fingerprint of some configurations is up to date exactly if these are held for it. -/
theorem noOp_iff_of_fingerprint (h : Holder ω HostConfigs) {host : HostId} {held told : HostConfigs}
    {site : Site ω HostConfigs} (hheld : site.held.scopes.get? (Decimal.idText host) = some held)
    (hfree : Digest.Sha256.CollisionFree {Wire.toText told, Wire.toText held}) :
    ∃ answer, (h.hostUpdateIfChanged host (scopeFingerprint told)).on site = (.ok answer, site) ∧
      (answer.isNoOp = true ↔ held = told) := by
  have hinj : scopeFingerprint held = scopeFingerprint told ↔ held = told :=
    scopeFingerprint_inj hfree (.inr rfl) (.inl rfl)
  refine ⟨_, h.on_hostUpdateIfChanged hheld _, ?_⟩
  rw [Held.scopeAnswer]
  split
  next hsame => exact iff_of_true rfl (hinj.1 hsame)
  next hother => exact iff_of_false Bool.false_ne_true fun heq => hother (hinj.2 heq)

/-- All that hosts are told in a run tells each of them its own. -/
theorem tellsOwn_of_tells {h : Holder ω HostConfigs} {settings : ConfigsSettings}
    (hstrategy : h.strategy = .configs settings) {events : List (Event HostConfigs)}
    {before after : Site ω HostConfigs} (htells : h.Tells events before after) {sent : List Envelope}
    (hsent : after.sent = before.sent ++ sent) : ∀ e ∈ sent, e.TellsOwn settings.destination := by
  obtain ⟨batches, hall, hbatches⟩ := htells
  intro e he
  rw [List.append_cancel_left (hsent.symm.trans hbatches)] at he
  obtain ⟨batch, hbatch, he⟩ := List.mem_flatten.1 he
  obtain ⟨event, -, hout⟩ := exists_of_mem_right hall hbatch
  rw [hstrategy] at hout
  exact Held.tellsOwn_of_outbound hout e he

/-- What is pushed agrees with what polls are answered, as long as the transport takes everything.

What is sent in any course of a holder of topologies, and in any run of one of configurations, is what there
is to say of each event that was applied or built in a call that reported a change, in the order of the calls
and stamped with the fingerprint just stored; calls that report none or fail add nothing. Right after a call,
a poll with the fingerprint of a broadcast of it is up to date. A poll of a host with the fingerprint that came
with some configurations for its text is up to date, at any later point at which the host is held, exactly if
these are the configurations that are held, unless the digest has a collision between the two. -/
theorem pushes_agree_with_polls {ω' : Type} (h : Holder ω Topology) (k : Holder ω' HostConfigs)
    {settings : TopologySettings} (hstrategy : h.strategy = .topology settings)
    {settings' : ConfigsSettings} (kstrategy : k.strategy = .configs settings')
    {calm : ω → Prop} (hflow : h.Flowing calm) {calm' : ω' → Prop} (kflow : k.Flowing calm') :
    (∀ (moves : List (Move ω)) (start : Site ω Topology),
      (∀ change, .outside change ∈ moves → ∀ w, calm w → calm (change w)) → calm start.world →
      ∃ batches, List.Forall₂ (fun e batch => (Strategy.topology settings).outbound e = .ok batch)
          (h.told moves start) batches ∧
        (h.course moves start).sent = start.sent ++ batches.flatten) ∧
    (∀ (steps : List (HostStep ω')) (start : Site ω' HostConfigs),
      (∀ change, .outside change ∈ steps → ∀ w, calm' w → calm' (change w)) → calm' start.world →
      ∃ batches, List.Forall₂ (fun e batch => (Strategy.configs settings').outbound e = .ok batch)
          (k.toldHosts steps start) batches ∧
        (k.runHosts steps start).sent = start.sent ++ batches.flatten) ∧
    (∀ (c : Call Topology) (site : Site ω Topology), calm site.world →
      let after := ((c.perform h).on site).2
      after.sent = site.sent ++ (c.told h site).map (fun e => announcement settings e.agentCopy) ∧
        ∀ e ∈ c.told h site, ∃ f, e.agentCopy.fingerprint = some f ∧
          (h.agentUpdateIfChanged f).on after = (.ok .noOp, after)) ∧
    (∀ (past later : List (HostStep ω')) (start : Site ω' HostConfigs),
      (∀ change, .outside change ∈ past → ∀ w, calm' w → calm' (change w)) → calm' start.world →
      ∀ sent, (k.runHosts past start).sent = start.sent ++ sent →
      ∀ (host : HostId) (topic : String) (e : Event HostConfigs),
        (⟨.host host topic, .configs e⟩ : Envelope) ∈ sent →
      ∀ told f, e.scopes.get? (Decimal.idText host) = some told → e.fingerprint = some f →
      let site := k.runHosts (past ++ later) start
      ∀ held, site.held.scopes.get? (Decimal.idText host) = some held →
        Digest.Sha256.CollisionFree {Wire.toText told, Wire.toText held} →
        ∃ answer, (k.hostUpdateIfChanged host f).on site = (.ok answer, site) ∧
          (answer.isNoOp = true ↔ held = told)) := by
  refine ⟨fun moves start hmoves hcalm => ?_, fun steps start hsteps hcalm => ?_, ?_, ?_⟩
  · exact hstrategy ▸ tells_course hflow hmoves hcalm
  · exact kstrategy ▸ tells_runHosts kflow hsteps hcalm
  · intro c site hcalm
    exact noOp_of_broadcast hstrategy hflow c hcalm
  · intro past later start hpast hcalm sent hsent host topic e he told f htold hf site held hheld hfree
    obtain ⟨own, scope, payload, type, -, heq⟩ :=
      tellsOwn_of_tells kstrategy (tells_runHosts kflow hpast hcalm) hsent _ he
    obtain ⟨-, hpayload⟩ := Envelope.mk.inj heq
    obtain rfl := Payload.configs.inj hpayload
    have hinserted := (OrdMap.get?_insert ∅ scope (Decimal.idText host) payload).symm.trans htold
    split at hinserted
    next =>
      cases hinserted
      cases hf
      exact k.noOp_iff_of_fingerprint hheld hfree
    next => cases hinserted

end

/-- A cluster is created and an unknown one is not deleted. A build of what is held is not announced; one of
something else is. -/
def rebuilding : List (Move (Surroundings Topology)) := [
  .call (.update (.single "1" {} .create)),
  .call (.update (.single "2" {} .delete)),
  .outside fun w => { w with registry := w.registry.upsertCluster { id := 1, name := "c" } },
  .call .resync,
  .call (.apply (.single "1" { hosts := [{ id := 7, name := "h" }] } .update)),
  .call .resync]

/-- The holders of a controller tell two events of these six, are up to date with what they have just told, and
are up to date with what they told host 7 exactly if they have told it nothing else since. -/
theorem pushes_agree_with_polls_rebuilding :
    let c : Controller := {}
    let h := c.topologyHolder
    let start := c.siteOf c.topology
    let created := (((Call.update (.single "1" {} .create)).perform h).on start).2
    let k := c.configsHolder
    let hosts := c.siteOf c.configs
    let pushed (n : UInt64) : HostStep (Surroundings HostConfigs) :=
      .call (.push (.updateHost 7 { timestamp := n }))
    (∃ batches, List.Forall₂ (fun e batch => h.strategy.outbound e = .ok batch)
        (h.told rebuilding start) batches ∧
      (h.course rebuilding start).sent = batches.flatten) ∧
    (h.told rebuilding start).length = 2 ∧
    (∃ f, (h.agentUpdateIfChanged f).on created = (.ok .noOp, created)) ∧
    ∀ n ∈ [1, 2], ∃ answer,
      (k.hostUpdateIfChanged 7 (scopeFingerprint ({ timestamp := 1 } : HostConfigs))).on
          (k.runHosts [pushed 1, pushed n] hosts) = (.ok answer, k.runHosts [pushed 1, pushed n] hosts) ∧
        (answer.isNoOp = true ↔ n = 1) := by
  intro c h start created k hosts pushed
  obtain ⟨hcourse, -, hbroadcast, hpoll⟩ :=
    pushes_agree_with_polls h k rfl rfl c.flowing_topology c.flowing_configs
  have hstart : start.world.Calm := ⟨rfl, rfl, rfl⟩
  have hhosts : hosts.world.Calm := ⟨rfl, rfl, rfl⟩
  have hmoves : ∀ change, Move.outside change ∈ rebuilding → ∀ w, w.Calm → (change w).Calm := by
    intro change hchange w hw
    simp only [rebuilding, List.mem_cons, Move.outside.injEq, reduceCtorEq, List.not_mem_nil, false_or,
      or_false] at hchange
    subst hchange
    exact ⟨hw.isOpen, hw.budget, hw.arrivals⟩
  refine ⟨hcourse rebuilding start hmoves hstart, by decide +kernel, ?_, ?_⟩
  · obtain ⟨-, htold⟩ := hbroadcast (.update (.single "1" {} .create)) start hstart
    have hone : ((Call.update (.single "1" {} .create)).told h start).length = 1 := by decide +kernel
    obtain ⟨e, he⟩ := List.length_eq_one_iff.1 hone
    obtain ⟨f, -, hf⟩ := htold e (he ▸ List.mem_singleton_self e)
    exact ⟨f, hf⟩
  · intro n hn
    replace hn : n = 1 ∨ n = 2 := by simpa using hn
    let stamp (n : UInt64) : HostConfigs := { timestamp := n }
    have hsent : (k.runHosts [pushed 1] hosts).sent = hosts.sent ++ [⟨.host 7 c.settings.configs.destination,
        .configs ((Event.single "7" (stamp 1) .update).withFingerprint (scopeFingerprint (stamp 1)))⟩] := by
      decide +kernel
    have hheld : (k.runHosts [pushed 1, pushed n] hosts).held.scopes.get? (Decimal.idText 7) =
        some (stamp n) := by
      rcases hn with rfl | rfl <;> decide +kernel
    have hdigest : Digest.Sha256.digest (Wire.toText (stamp 1)).toUTF8.toList =
        Digest.Sha256.digest (Wire.toText (stamp n)).toUTF8.toList → n = 1 := by
      rcases hn with rfl | rfl <;> decide +kernel
    have hfree : Digest.Sha256.CollisionFree {Wire.toText (stamp 1), Wire.toText (stamp n)} := by
      refine Set.injOn_pair.2 fun hsame => ?_
      rw [hdigest hsame]
    obtain ⟨answer, hon, hiff⟩ := hpoll [pushed 1] [pushed n] hosts (by simp [pushed]) hhosts _ hsent 7 _ _
      (List.mem_singleton_self _) (stamp 1) _ rfl rfl (stamp n) hheld hfree
    refine ⟨answer, hon, hiff.trans ⟨fun heq => congrArg HostConfigs.timestamp heq, ?_⟩⟩
    rintro rfl
    rfl

end FleetSync.Holder
