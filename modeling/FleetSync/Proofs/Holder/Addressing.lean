import FleetSync.Proofs.Holder.Replaying

/-!
Keys of configurations, and the hosts they are for.

A host is asked for under the text of its number, and told by what a key is the number of. Reading numbers is
liberal, so several keys may be for one host, and only one of them is its text. Keys get into the held state
by events that create or update, by fresh builds, and by hosts that ask, and only those of hosts that ask are
texts of numbers in any case. So every held key is the text of its host throughout a run exactly if all those
are that come with events and builds (`Held.addressed_apply_iff`, `Held.addressed_swap_iff`). One that is not
is held all the same (`Holder.unaddressed_held`), and the host it is for does not find it.
-/
namespace FleetSync

open Decimal (int64?_idText)

/-- The key is the text of the number of a host. -/
def IsHostText (scope : ScopeKey) : Prop := ∃ host, scope = Decimal.idText host

/-- The text of a host is a number of that host and of no other. -/
theorem IsHostText.eq_idText {scope : ScopeKey} (h : IsHostText scope) {host : HostId}
    (hhost : Decimal.int64? scope.toList = some host) : scope = Decimal.idText host := by
  obtain ⟨own, rfl⟩ := h
  rw [Option.some.inj ((int64?_idText own).symm.trans hhost)]

/-- A sign or leading zeros make another text of the same number. -/
theorem not_isHostText_plus_seven : ¬ IsHostText "+7" := by
  intro h
  have htext : "+7" = Decimal.idText 7 := h.eq_idText rfl
  exact absurd htext (by decide)

namespace Held

/-- Every key is the text of a host. -/
def Addressed (held : Held HostConfigs) : Prop :=
  ∀ scope configs, held.scopes.get? scope = some configs → IsHostText scope

/-- The keys that an event brings if it is applied. A deletion brings none. -/
def keysBrought (s : Strategy HostConfigs) (held : Held HostConfigs) (e : Event HostConfigs) : List ScopeKey :=
  match held.apply s e with
  | .ok _ => if e.type = .delete then [] else e.scopes.keys
  | .error _ => []

/-- The keys of a fresh build if it is taken over, which it is unless its fingerprint is held already. -/
def keysTakenOver (held : Held HostConfigs) (scopes : OrdMap ScopeKey HostConfigs) : List ScopeKey :=
  if FleetSync.fingerprint scopes = held.fingerprint then [] else scopes.keys

/-- What is held for a scope after an event: its payload, nothing for a deletion, and what was held before if
it has none. -/
theorem get?_of_apply_configs {settings : ConfigsSettings} {held next : Held HostConfigs}
    {e : Event HostConfigs} {changed : Bool}
    (happly : held.apply (.configs settings) e = .ok (next, changed)) (scope : ScopeKey) :
    next.scopes.get? scope =
      match e.scopes.get? scope with
      | some payload => if e.type = .delete then none else some payload
      | none => held.scopes.get? scope := by
  have ha := apply_cases (.configs settings) e held
  rw [happly] at ha
  cases hpayload : e.scopes.get? scope with
  | none =>
    refine ha.merged.others scope fun hm => ?_
    obtain ⟨p, hp, rfl⟩ := List.mem_map.1 hm
    rw [(OrdMap.get?_eq_some_iff ..).2 hp] at hpayload
    cases hpayload
  | some payload =>
    obtain ⟨v, hv, hresult⟩ := ha.merged.named (scope, payload) ((OrdMap.get?_eq_some_iff ..).1 hpayload)
    obtain ⟨-, -, hreplace⟩ := bind_eq_ok_iff.1 hv
    obtain ⟨hsettle, -⟩ := settle_replaceScope (p := (scope, payload)) hreplace
    have hresolve := get?_settle held.scopes scope scope v
    rw [if_pos rfl, hsettle, get?_write, if_pos rfl] at hresolve
    exact hresult.trans hresolve.symm

/-- An event with something to write is a change. -/
theorem changed_of_apply_configs {settings : ConfigsSettings} {held next : Held HostConfigs}
    {e : Event HostConfigs} {changed : Bool}
    (happly : held.apply (.configs settings) e = .ok (next, changed)) {p : ScopeKey × HostConfigs}
    (hp : p ∈ e.scopes.toList) : changed = true := by
  have ha := apply_cases (.configs settings) e held
  rw [happly] at ha
  obtain ⟨v, hv, -⟩ := ha.merged.named p hp
  obtain ⟨-, -, hreplace⟩ := bind_eq_ok_iff.1 hv
  exact ha.merged.changed_iff.2 ⟨p, hp, v, hv, Verdict.isChange_iff.1 (settle_replaceScope hreplace).2⟩

theorem mem_keysBrought_iff {s : Strategy HostConfigs} {held : Held HostConfigs} {e : Event HostConfigs}
    {scope : ScopeKey} :
    scope ∈ held.keysBrought s e ↔
      (∃ r, held.apply s e = .ok r) ∧ e.type ≠ .delete ∧ ∃ payload, e.scopes.get? scope = some payload := by
  rw [keysBrought]
  cases held.apply s e with
  | error f => simp
  | ok r =>
    by_cases htype : e.type = .delete
    · simp [htype]
    · simp [htype, OrdMap.mem_keys_iff, Option.isSome_iff_exists]

section
variable {held next : Held HostConfigs} (haddressed : held.Addressed)
include haddressed

/-- What an event leaves is addressed exactly if the keys are that it brings. -/
theorem addressed_apply_iff {settings : ConfigsSettings} {e : Event HostConfigs} {changed : Bool}
    (happly : held.apply (.configs settings) e = .ok (next, changed)) :
    next.Addressed ↔ ∀ scope ∈ held.keysBrought (.configs settings) e, IsHostText scope := by
  constructor
  · intro h scope hscope
    obtain ⟨-, htype, payload, hpayload⟩ := mem_keysBrought_iff.1 hscope
    refine h scope payload ?_
    rw [get?_of_apply_configs happly, hpayload]
    exact if_neg htype
  · intro h scope configs hconfigs
    rw [get?_of_apply_configs happly] at hconfigs
    cases hpayload : e.scopes.get? scope with
    | none =>
      rw [hpayload] at hconfigs
      exact haddressed scope configs hconfigs
    | some payload =>
      rw [hpayload] at hconfigs
      refine h scope (mem_keysBrought_iff.2 ⟨⟨_, happly⟩, fun htype => ?_, payload, hpayload⟩)
      rw [htype] at hconfigs
      cases hconfigs

/-- What a fresh build leaves is addressed exactly if the keys are that are taken over. -/
theorem addressed_swap_iff (scopes : OrdMap ScopeKey HostConfigs) :
    (held.swap scopes).1.Addressed ↔ ∀ scope ∈ held.keysTakenOver scopes, IsHostText scope := by
  by_cases hfp : FleetSync.fingerprint scopes = held.fingerprint
  · have hsame : (held.swap scopes).1 = held := congrArg Prod.fst (if_pos hfp)
    rw [hsame, keysTakenOver, if_pos hfp]
    exact iff_of_true haddressed (List.forall_mem_nil _)
  · have hnew : (held.swap scopes).1 = ofScopes scopes := congrArg Prod.fst (if_neg hfp)
    rw [hnew, keysTakenOver, if_neg hfp]
    simp [Addressed, ofScopes, OrdMap.mem_keys_iff, Option.isSome_iff_exists]

theorem Addressed.of_mem_keys {scope : ScopeKey} (hscope : scope ∈ held.scopes.keys) : IsHostText scope := by
  obtain ⟨configs, hconfigs⟩ := Option.isSome_iff_exists.1 (OrdMap.mem_keys_iff.1 hscope)
  exact haddressed scope configs hconfigs

/-- What is held for a host is held under its text, and under no other key. -/
theorem Addressed.unique {scope : ScopeKey} {configs : HostConfigs} {host : HostId}
    (hheld : held.scopes.get? scope = some configs) (hhost : Decimal.int64? scope.toList = some host) :
    held.scopes.get? (Decimal.idText host) = some configs ∧
      ∀ scope' configs', held.scopes.get? scope' = some configs' →
        Decimal.int64? scope'.toList = some host → scope' = scope := by
  have hscope := (haddressed scope configs hheld).eq_idText hhost
  refine ⟨hscope ▸ hheld, fun scope' configs' hheld' hhost' => ?_⟩
  rw [(haddressed scope' configs' hheld').eq_idText hhost', hscope]

/-- A host that asks brings the text of its number. -/
theorem Addressed.storeFetched (host : HostId) (configs : HostConfigs) :
    (held.storeFetched (Decimal.idText host) configs).1.Addressed := by
  rw [Held.storeFetched]
  split
  · exact haddressed
  · intro scope value hvalue
    rw [ofScopes, OrdMap.get?_insert] at hvalue
    split at hvalue
    next hscope => exact ⟨host, hscope⟩
    next => exact haddressed scope value hvalue

end
end Held

namespace Holder
variable {ω : Type}

/-- The keys that a call brings to what is held, apart from those of hosts. -/
def HostCall.keysBrought (h : Holder ω HostConfigs) (site : Site ω HostConfigs) : HostCall → List ScopeKey
  | apply e | push (.update e) => site.held.keysBrought h.strategy e
  | load =>
    match (h.currentData.on site).1 with
    | .ok current => site.held.keysTakenOver current.scopes
    | .error _ => []
  | push _ | currentData | poll _ _ => []

def HostStep.keysBrought (h : Holder ω HostConfigs) (site : Site ω HostConfigs) :
    HostStep ω → List ScopeKey
  | call c => c.keysBrought h site
  | outside _ => []

/-- The keys that a run brings, step by step. -/
def keysBrought (h : Holder ω HostConfigs) : List (HostStep ω) → Site ω HostConfigs → List ScopeKey
  | [], _ => []
  | step :: steps, site => step.keysBrought h site ++ keysBrought h steps (step.next h site)

/-- Sending does not touch the held state, and leaves the surroundings calm if the transport does. -/
theorem publish_preserves_calm {α : Type} {h : Holder ω α} {calm : ω → Prop}
    (hsend : ∀ e w, calm w → calm ((h.transport.send e).on w).2) (P : Held α → Prop) (e : Envelope) :
    (h.publish e).Preserves fun site => P site.held ∧ calm site.world := by
  rintro site ⟨hp, hcalm⟩
  have hnext := hsend e site.world hcalm
  rw [on_publish]
  rw [Op.on] at hnext
  cases hr : h.transport.send e site.world <;> rw [hr] at hnext <;> exact ⟨hp, hnext⟩

section
variable {h : Holder ω HostConfigs} {settings : ConfigsSettings} {calm : ω → Prop}
  (hsend : ∀ e w, calm w → calm ((h.transport.send e).on w).2)
include hsend

theorem update_preserves_calm (e : Event HostConfigs) :
    (h.update e).Preserves fun site => calm site.world := by
  refine update_preserves_of_apply (fun envelope site hcalm => ?_)
    (h.apply_preserves_outside (Q := fun _ => calm) e)
  exact (publish_preserves_calm hsend (fun _ => True) envelope site ⟨trivial, hcalm⟩).2

variable (hstrategy : h.strategy = .configs settings)
include hstrategy

/-- An event that brings no other keys than texts of hosts leaves what is held addressed. -/
theorem update_preserves_addressed {e : Event HostConfigs}
    (he : e.type = .delete ∨ ∀ scope payload, e.scopes.get? scope = some payload → IsHostText scope) :
    (h.update e).Preserves fun site => site.held.Addressed ∧ calm site.world := by
  refine update_preserves_of_apply (publish_preserves_calm hsend Held.Addressed) ?_
  rintro site ⟨haddressed, hcalm⟩
  rw [on_apply, hstrategy]
  cases happly : site.held.apply (.configs settings) e with
  | error f => exact ⟨haddressed, hcalm⟩
  | ok r =>
    refine ⟨(Held.addressed_apply_iff haddressed happly).2 fun scope hscope => ?_, hcalm⟩
    obtain ⟨-, htype, payload, hpayload⟩ := Held.mem_keysBrought_iff.1 hscope
    exact he.resolve_left htype scope payload hpayload

theorem updateHost_preserves_addressed (host : HostId) (configs : HostConfigs) :
    (h.updateHost host configs).Preserves fun site => site.held.Addressed ∧ calm site.world := by
  refine update_preserves_addressed hsend hstrategy (.inr fun scope payload hpayload => ?_)
  rw [Event.get?_single] at hpayload
  split at hpayload
  next hscope => exact ⟨host, hscope⟩
  next => cases hpayload

end

/-- So does a host that asks. -/
theorem hostUpdateIfChanged_preserves_addressed {h : Holder ω HostConfigs} {calm : ω → Prop}
    (hsilent : h.source.SilentWhile calm) (host : HostId) (prior : Fingerprint) :
    (h.hostUpdateIfChanged host prior).Preserves fun site => site.held.Addressed ∧ calm site.world := by
  refine Op.preserves_get.bind fun site => ?_
  cases site.held.scopes.get? (Decimal.idText host) with
  | some value => exact Op.preserves_pure _
  | none =>
    refine Op.Preserves.bind (hsilent.preserves.fetch _) fun fetched => ?_
    refine Op.Preserves.bind (fun now hnow => ?_) fun value => Op.preserves_pure _
    exact ⟨hnow.1.storeFetched host fetched, hnow.2⟩

section
variable {h : Holder ω HostConfigs} {settings : ConfigsSettings} (hstrategy : h.strategy = .configs settings)
include hstrategy

/-- An event leaves what is held addressed exactly if the keys are that it brings. -/
theorem addressed_leaves_iff {site : Site ω HostConfigs} (haddressed : site.held.Addressed)
    (e : Event HostConfigs) :
    ((Call.apply e).leaves h site).Addressed ↔
      ∀ scope ∈ site.held.keysBrought h.strategy e, IsHostText scope := by
  rw [Call.leaves, hstrategy]
  cases happly : site.held.apply (.configs settings) e with
  | ok r => exact Held.addressed_apply_iff haddressed happly
  | error f =>
    refine iff_of_true haddressed fun scope hscope => ?_
    obtain ⟨⟨r, hr⟩, -⟩ := Held.mem_keysBrought_iff.1 hscope
    cases happly.symm.trans hr

variable {calm : ω → Prop} (hsilent : h.source.SilentWhile calm)
  (hsend : ∀ e w, calm w → calm ((h.transport.send e).on w).2)
include hsilent hsend

/-- A call leaves what is held addressed exactly if the keys are that it brings. -/
theorem HostCall.addressed_perform_iff (c : HostCall) {site : Site ω HostConfigs}
    (haddressed : site.held.Addressed) (hcalm : calm site.world) :
    (((c.perform h).on site).2.held.Addressed ↔ ∀ scope ∈ c.keysBrought h site, IsHostText scope) ∧
      calm ((c.perform h).on site).2.world := by
  have hhost := updateHost_preserves_addressed hsend hstrategy
  -- the calls that bring no keys but those of hosts
  have hkept {op : Op (Site ω HostConfigs) Unit}
      (hop : op.Preserves fun site => site.held.Addressed ∧ calm site.world) :
      ((op.on site).2.held.Addressed ↔ ∀ scope ∈ ([] : List ScopeKey), IsHostText scope) ∧
        calm (op.on site).2.world := by
    obtain ⟨haddressed', hcalm'⟩ := hop site ⟨haddressed, hcalm⟩
    exact ⟨iff_of_true haddressed' (List.forall_mem_nil _), hcalm'⟩
  cases c with
  | push p =>
    cases p with
    | update e =>
      have hheld : (((push (.update e)).perform h).on site).2.held = (Call.apply e).leaves h site :=
        (congrArg Site.held (Op.snd_on_bind_pure ..)).trans (h.held_update e site)
      rw [hheld]
      refine ⟨addressed_leaves_iff hstrategy haddressed e, ?_⟩
      exact (update_preserves_calm hsend e).bind (fun _ => Op.preserves_pure ()) site hcalm
    | updateHost host configs => exact hkept ((hhost host configs).bind fun _ => Op.preserves_pure ())
    | removeHost host =>
      have hremove : (h.removeHost host).Preserves fun site => site.held.Addressed ∧ calm site.world :=
        update_preserves_addressed hsend hstrategy (.inl rfl)
      exact hkept (hremove.bind fun _ => Op.preserves_pure ())
    | refreshHosts registry cluster hosts =>
      have hrefresh := refreshHosts_preserves hsilent.preserves.fetch hhost registry cluster hosts
      exact hkept (hrefresh.bind fun _ => Op.preserves_pure ())
  | apply e =>
    have hheld : (((apply e).perform h).on site).2.held = (Call.apply e).leaves h site :=
      (congrArg Site.held (Op.snd_on_bind_pure ..)).trans (h.held_apply e site)
    rw [hheld]
    refine ⟨addressed_leaves_iff hstrategy haddressed e, ?_⟩
    have happly := h.apply_preserves_outside (Q := fun _ => calm) e
    exact happly.bind (fun _ => Op.preserves_pure ()) site hcalm
  | load =>
    have hasked := (currentData_preserves (hsilent site.held) site ⟨rfl, hcalm⟩).1
    have hheld : ((load.perform h).on site).2.held = Call.load.leaves h site :=
      (congrArg Site.held (Op.snd_on_bind_pure ..)).trans (held_load_of_asked hasked)
    rw [hheld]
    have hload := h.load_preserves_outside (Q := fun _ => calm) hsilent.preserves_calm
    refine ⟨?_, hload.bind (fun _ => Op.preserves_pure ()) site hcalm⟩
    rw [Call.leaves, keysBrought]
    cases (h.currentData.on site).1 with
    | error f => exact iff_of_true haddressed (List.forall_mem_nil _)
    | ok current => exact Held.addressed_swap_iff haddressed current.scopes
  | currentData => exact hkept ((currentData_preserves hsilent.preserves).bind fun _ => Op.preserves_pure ())
  | poll host prior =>
    have hpoll := hostUpdateIfChanged_preserves_addressed hsilent host prior
    exact hkept (hpoll.bind fun _ => Op.preserves_pure ())

theorem HostStep.addressed_next_iff (step : HostStep ω)
    (hstep : ∀ change, step = .outside change → ∀ w, calm w → calm (change w)) {site : Site ω HostConfigs}
    (haddressed : site.held.Addressed) (hcalm : calm site.world) :
    ((step.next h site).held.Addressed ↔ ∀ scope ∈ step.keysBrought h site, IsHostText scope) ∧
      calm (step.next h site).world := by
  cases step with
  | call c => exact c.addressed_perform_iff hstrategy hsilent hsend haddressed hcalm
  | outside change => exact ⟨iff_of_true haddressed (List.forall_mem_nil _), hstep change rfl site.world hcalm⟩

theorem addressed_run_iff {steps : List (HostStep ω)}
    (hsteps : ∀ change, .outside change ∈ steps → ∀ w, calm w → calm (change w)) {site : Site ω HostConfigs}
    (haddressed : site.held.Addressed) (hcalm : calm site.world) :
    (∀ past, past <+: steps → (h.runHosts past site).held.Addressed) ↔
      ∀ scope ∈ h.keysBrought steps site, IsHostText scope := by
  induction steps generalizing site with
  | nil =>
    refine iff_of_true (fun past hpast => ?_) (List.forall_mem_nil _)
    rw [List.prefix_nil.1 hpast]
    exact haddressed
  | cons step steps ih =>
    obtain ⟨hstep, hnextCalm⟩ := step.addressed_next_iff hstrategy hsilent hsend
      (fun change hchange => hsteps change (hchange ▸ List.mem_cons_self)) haddressed hcalm
    have ih' := @ih fun change hchange => hsteps change (List.mem_cons_of_mem _ hchange)
    rw [forall_prefix_cons_iff, keysBrought, List.forall_mem_append, ← hstep]
    constructor
    · rintro ⟨-, hall⟩
      have hnext := hall [] List.nil_prefix
      exact ⟨hnext, (ih' hnext hnextCalm).1 hall⟩
    · rintro ⟨hnext, hrest⟩
      exact ⟨haddressed, (ih' hnext hnextCalm).2 hrest⟩

end

/-- A host that is told of a creation or an update finds what it was told, if its key is its text. -/
theorem found_of_update {h : Holder ω HostConfigs} {settings : ConfigsSettings}
    (hstrategy : h.strategy = .configs settings) {e : Event HostConfigs} {site after : Site ω HostConfigs}
    {changed : Bool} (hok : (h.update e).on site = (.ok changed, after)) (htype : e.type ≠ .delete)
    (haddressed : after.held.Addressed) {scope : ScopeKey} {payload : HostConfigs}
    (hpayload : e.scopes.get? scope = some payload) :
    ∃ host, Decimal.int64? scope.toList = some host ∧
      (⟨.host host settings.destination, .configs
        ((Event.single scope payload e.type).withFingerprint (scopeFingerprint payload))⟩ : Envelope) ∈
          after.sent ∧
      after.held.scopes.get? (Decimal.idText host) = some payload ∧
      ∀ prior, (h.hostUpdateIfChanged host prior).on after =
        (.ok (Held.scopeAnswer (Decimal.idText host) payload prior), after) := by
  obtain ⟨happly, batch, hsent, hbatch⟩ := sent_of_update_ok hok
  rw [hstrategy] at happly hbatch
  have hmem := (OrdMap.get?_eq_some_iff ..).1 hpayload
  have hheld : after.held.scopes.get? scope = some payload := by
    rw [Held.get?_of_apply_configs happly, hpayload]
    exact if_neg htype
  rw [Held.changed_of_apply_configs happly hmem] at hbatch
  obtain ⟨envelope, henvelope, host, hhost, rfl⟩ := exists_of_mem_right (Held.forall₂_outbound hbatch).flip hmem
  refine ⟨host, hhost, hsent ▸ List.mem_append_right _ henvelope, ?_⟩
  rw [(haddressed scope payload hheld).eq_idText hhost] at hheld
  exact ⟨hheld, h.on_hostUpdateIfChanged hheld⟩

/-- Throughout a run, every key is the text of a host exactly if all those are that come with events and builds.

The holder starts out empty, the run is of any calls, with any events and whether or not they fail, and its
source leaves what is held alone. In any state in which every key is the text of a host, what is held for a
host is held under one key only, the one under which that host is looked up. If a creation or an update that
succeeds leaves such a state, then each host that it told is answered with what it was told. -/
theorem addressed_throughout_iff (h : Holder ω HostConfigs) {settings : ConfigsSettings}
    (hstrategy : h.strategy = .configs settings) {calm : ω → Prop} (hsilent : h.source.SilentWhile calm)
    (hsend : ∀ e w, calm w → calm ((h.transport.send e).on w).2) (start : Site ω HostConfigs)
    (hstart : start.held = {}) (hcalm : calm start.world) (steps : List (HostStep ω))
    (hsteps : ∀ change, .outside change ∈ steps → ∀ w, calm w → calm (change w)) :
    ((∀ past, past <+: steps → ∀ scope configs, (h.runHosts past start).held.scopes.get? scope = some configs →
        ∃ host, scope = Decimal.idText host) ↔
      ∀ scope ∈ h.keysBrought steps start, ∃ host, scope = Decimal.idText host) ∧
    (∀ held : Held HostConfigs, held.Addressed → ∀ scope configs host,
      held.scopes.get? scope = some configs → Decimal.int64? scope.toList = some host →
      held.scopes.get? (Decimal.idText host) = some configs ∧
        ∀ scope' configs', held.scopes.get? scope' = some configs' →
          Decimal.int64? scope'.toList = some host → scope' = scope) ∧
    (∀ (e : Event HostConfigs) (site after : Site ω HostConfigs) (changed : Bool),
      (h.update e).on site = (.ok changed, after) → e.type ≠ .delete → after.held.Addressed →
      ∀ scope payload, e.scopes.get? scope = some payload → ∃ host, Decimal.int64? scope.toList = some host ∧
        (⟨.host host settings.destination, .configs
          ((Event.single scope payload e.type).withFingerprint (scopeFingerprint payload))⟩ : Envelope) ∈
            after.sent ∧
        after.held.scopes.get? (Decimal.idText host) = some payload ∧
        ∀ prior, (h.hostUpdateIfChanged host prior).on after =
          (.ok (Held.scopeAnswer (Decimal.idText host) payload prior), after)) := by
  refine ⟨addressed_run_iff hstrategy hsilent hsend hsteps ?_ hcalm, ?_, ?_⟩
  · rw [hstart]
    intro scope configs hnone
    cases hnone
  · intro held haddressed scope configs host hheld hhost
    exact haddressed.unique hheld hhost
  · intro e site after changed hok htype haddressed scope payload hpayload
    exact found_of_update hstrategy hok htype haddressed hpayload

/-- Hosts are created, refreshed and removed, one asks, and what holds no host is refused. -/
def greeting : List (HostStep (Surroundings HostConfigs)) := [
  .outside fun w => { w with table := { w.table with values := w.table.values.insert "7" { timestamp := 5 } } },
  .call (.push (.update ((Event.single "-3" { timestamp := 1 } .create).withScope "0" { timestamp := 2 }))),
  .call (.poll 7 ""),
  .call (.apply (.single "host-a" {} .create)),
  .call (.push (.removeHost 0)),
  .call .load]

/-- Every key is the text of a host throughout, and host 3 finds what it is told. -/
theorem addressed_throughout_greeting :
    let c : Controller := {}
    let start := c.siteOf c.configs
    let told := (c.configsHolder.update (.single "3" { timestamp := 9 } .create)).on
      (c.configsHolder.runHosts greeting start)
    (∀ past, past <+: greeting → (c.configsHolder.runHosts past start).held.Addressed) ∧
      (c.configsHolder.keysBrought greeting start).length = 3 ∧
      told.2.held.scopes.toList = [("3", { timestamp := 9 }), ("7", { timestamp := 5 })] ∧
      told.2.held.scopes.get? (Decimal.idText 3) = some { timestamp := 9 } := by
  intro c start told
  have hcalm : start.world.Calm := ⟨rfl, rfl, rfl⟩
  have hsteps : ∀ change, HostStep.outside change ∈ greeting → ∀ w, w.Calm → (change w).Calm := by
    intro change hchange w hw
    simp only [greeting, List.mem_cons, HostStep.outside.injEq, reduceCtorEq, List.not_mem_nil,
      or_false] at hchange
    subst hchange
    exact ⟨hw.isOpen, hw.budget, hw.arrivals⟩
  obtain ⟨hiff, -, hfound⟩ := addressed_throughout_iff c.configsHolder rfl c.silentWhile_configs
    c.flowing_configs.calm_send start rfl hcalm greeting hsteps
  have hkeys : c.configsHolder.keysBrought greeting start = ["-3", "0", "7"] := by decide +kernel
  have hheld : told.2.held.scopes.toList = [("3", { timestamp := 9 }), ("7", { timestamp := 5 })] := by
    decide +kernel
  have haddressed : told.2.held.Addressed := by
    intro scope configs hconfigs
    have hmem := (OrdMap.get?_eq_some_iff ..).1 hconfigs
    rw [hheld] at hmem
    rcases List.mem_cons.1 hmem with heq | hmem
    · exact ⟨3, (Prod.mk.inj heq).1⟩
    · exact ⟨7, (Prod.mk.inj (List.mem_singleton.1 hmem)).1⟩
  have hok : told.1 = .ok true := by decide +kernel
  refine ⟨hiff.2 ?_, by rw [hkeys]; rfl, hheld, ?_⟩
  · rw [hkeys]
    simp only [List.forall_mem_cons]
    exact ⟨⟨-3, rfl⟩, ⟨0, rfl⟩, ⟨7, rfl⟩, List.forall_mem_nil _⟩
  · obtain ⟨host, hhost, -, hget, -⟩ :=
      hfound _ _ told.2 true (Prod.ext hok rfl) (by decide) haddressed "3" { timestamp := 9 } rfl
    have hthree : some host = some 3 := hhost.symm
    rw [← Option.some.inj hthree]
    exact hget

/-- A key with a sign, and one that is no number at all. Host 7 is told of the first and does not find it, and
once it is created under its text as well it is held twice. The second comes with a build. -/
theorem unaddressed_held :
    let c : Controller := {}
    let start := c.siteOf c.configs
    let signed := c.configsHolder.runHosts [.call (.push (.update (.single "+7" {} .create)))] start
    let twice := c.configsHolder.runHosts [.call (.push (.updateHost 7 {}))] signed
    let built := c.configsHolder.runHosts
      [.outside fun w => { w with table := { w.table with values := w.table.values.insert "host-a" {} } },
        .call .load] start
    (signed.held.scopes.keys = ["+7"] ∧
      signed.sent.map (·.destination) = [.host 7 c.settings.configs.destination] ∧
      ((c.configsHolder.hostUpdateIfChanged 7 "").on signed).1 =
        .error (.scopeUnavailable "7" "not in source") ∧
      ¬ signed.held.Addressed) ∧
    twice.held.scopes.keys = ["+7", "7"] ∧
    (built.held.scopes.keys = ["host-a"] ∧ ¬ built.held.Addressed) := by
  intro c start signed twice built
  have hsigned : signed.held.scopes.keys = ["+7"] := by decide +kernel
  have hbuilt : built.held.scopes.keys = ["host-a"] := by decide +kernel
  refine ⟨⟨hsigned, by decide +kernel, by decide +kernel, fun h => ?_⟩, by decide +kernel, hbuilt, fun h => ?_⟩
  · exact not_isHostText_plus_seven (h.of_mem_keys (by rw [hsigned]; exact List.mem_singleton_self _))
  · have hkey : "host-a" ∈ built.held.scopes.keys := by rw [hbuilt]; exact List.mem_singleton_self _
    obtain ⟨host, hhost⟩ := h.of_mem_keys hkey
    have hnumber := int64?_idText host
    rw [← hhost] at hnumber
    cases hnumber

end Holder
end FleetSync
