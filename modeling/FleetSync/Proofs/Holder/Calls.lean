import FleetSync.Controller.Basic
import FleetSync.Proofs.Traversal
import Mathlib.Logic.Relation

/-!
The calls on a holder, and how they get at the held state.

Whatever a holder does, it replaces the held state in three ways only (`Held.Stores`): by the outcome
of an event, by a fresh build, or by itself with one more scope. So a property that these three keep is
kept by every call, failing or not (`Call.perform_preserves`), and by every run of calls
(`run_preserves`), as long as the source plays along. A source may leave the held state alone
(`Source.Silent`) or call the holder back while it is being asked (`Source.Orderly`), but it has no other
way to the held state either. The sources of a controller are of these kinds.
-/
namespace FleetSync

/-! ### Stores -/

namespace Held
variable {α : Type} [Wire α]

/-- The ways in which one held state takes the place of another. -/
inductive Stores (s : Strategy α) : Held α → Held α → Prop
  | applied {held next : Held α} (e : Event α) (changed : Bool)
      (h : held.apply s e = .ok (next, changed)) : Stores s held next
  | swapped (held : Held α) (scopes : OrdMap ScopeKey α) : Stores s held (held.swap scopes).1
  | fetched (held : Held α) (scope : ScopeKey) (value : α) :
      Stores s held (held.storeFetched scope value).1

/-- A property of held states that every store keeps. -/
def Kept (s : Strategy α) (P : Held α → Prop) : Prop :=
  ∀ held next, Stores s held next → P held → P next

/-- What one store keeps, any number of them keeps. -/
theorem Kept.trans {s : Strategy α} {P : Held α → Prop} (hkept : Kept s P) {held next : Held α}
    (h : Relation.ReflTransGen (Stores s) held next) (hp : P held) : P next := by
  induction h with
  | refl => exact hp
  | tail _ hstep ih => exact hkept _ _ hstep ih

end Held

/-! ### Sources -/

namespace Source
variable {ω α : Type}

/-- Asking the source leads from sites with a property to sites with it. -/
structure Preserves (P : Site ω α → Prop) (src : Source ω α) : Prop where
  scopes : src.scopes.Preserves P
  fetch : ∀ scope, (src.fetch scope).Preserves P

/-- The source leaves the held state alone. -/
def Silent (src : Source ω α) : Prop := ∀ held, src.Preserves (·.held = held)

/-- The source leaves the held state alone as long as its surroundings are calm, and leaves them calm. -/
def SilentWhile (calm : ω → Prop) (src : Source ω α) : Prop :=
  ∀ held, src.Preserves fun site => site.held = held ∧ calm site.world

section
variable {calm : ω → Prop} {src : Source ω α} (hsilent : src.SilentWhile calm)
include hsilent

theorem SilentWhile.preserves {P : Held α → Prop} :
    src.Preserves fun site => P site.held ∧ calm site.world where
  scopes site hp := by
    obtain ⟨hheld, hcalm⟩ := (hsilent site.held).scopes site ⟨rfl, hp.2⟩
    exact ⟨hheld ▸ hp.1, hcalm⟩
  fetch scope site hp := by
    obtain ⟨hheld, hcalm⟩ := (hsilent site.held).fetch scope site ⟨rfl, hp.2⟩
    exact ⟨hheld ▸ hp.1, hcalm⟩

theorem SilentWhile.preserves_calm : src.Preserves fun site => calm site.world where
  scopes site hcalm := ((hsilent site.held).scopes site ⟨rfl, hcalm⟩).2
  fetch scope site hcalm := ((hsilent site.held).fetch scope site ⟨rfl, hcalm⟩).2

end

variable [Wire α]

/-- What the source does to the held state, if anything, it does by stores. -/
def Orderly (s : Strategy α) (src : Source ω α) : Prop :=
  ∀ held, src.Preserves fun site => Relation.ReflTransGen (Held.Stores s) held site.held

theorem Orderly.preserves {s : Strategy α} {src : Source ω α} {P : Held α → Prop}
    (hsrc : src.Orderly s) (hkept : Held.Kept s P) : src.Preserves fun site => P site.held where
  scopes site hp := hkept.trans ((hsrc site.held).scopes site .refl) hp
  fetch scope site hp := hkept.trans ((hsrc site.held).fetch scope site .refl) hp

theorem Silent.orderly {src : Source ω α} (hsrc : src.Silent) (s : Strategy α) : src.Orderly s := by
  intro held
  constructor
  · exact Op.Preserves.of_part (fun x => (hsrc x).scopes) _
  · intro scope
    exact Op.Preserves.of_part (fun x => (hsrc x).fetch scope) _

/-- A registry is only looked at. -/
theorem preserves_ofRegistry (registry : ω → Registry) (P : Site ω Topology → Prop) :
    (ofRegistry registry).Preserves P where
  scopes _ hp := hp
  fetch scope site hp := by
    show P (Op.on (Op.ofExcept ((registry site.world).topology scope)) site).2
    rw [Op.on_ofExcept]
    exact hp

theorem silent_ofRegistry (registry : ω → Registry) : (ofRegistry registry).Silent :=
  fun held => preserves_ofRegistry registry (·.held = held)

end Source

/-- Applying an event is a store, or leaves the site as it was. -/
theorem Strategy.applyAt_preserves {ω α : Type} [Wire α] {s : Strategy α} {P : Held α → Prop}
    (hkept : Held.Kept s P) (e : Event α) :
    (s.applyAt e : Op (Site ω α) Bool).Preserves fun site => P site.held := by
  intro site hp
  rw [Op.on, applyAt]
  cases happly : site.held.apply s e with
  | error f => exact hp
  | ok r => exact hkept _ _ (.applied e r.2 happly) hp

/-- A table reaches the held state by the events that arrive while it is asked. -/
theorem SourceTable.orderly_source {ω α : Type} [Wire α] (s : Strategy α) (get : ω → SourceTable α)
    (set : SourceTable α → ω → ω) : (source s get set).Orderly s := by
  intro held
  have hkept : Held.Kept s (Relation.ReflTransGen (Held.Stores s) held) := by
    intro now next hstep h
    exact h.tail hstep
  constructor
  · intro site h
    exact h
  · intro scope site h
    have hfound : ∀ r, (Op.ofExcept r : Op (Site ω α) α).Preserves
        fun site => Relation.ReflTransGen (Held.Stores s) held site.held := Op.preserves_ofExcept
    simp only [Op.on, source]
    cases (get site.world).arrivals.get? scope with
    | none => exact hfound _ site h
    | some e =>
      refine Op.Preserves.bind (s.applyAt_preserves hkept e) (fun _ => hfound _) _ ?_
      exact h

/-- The table of a holder is reached through the holder. -/
theorem Surroundings.orderly_tableSource {α : Type} [Wire α] (s : Strategy α) :
    (tableSource s).Orderly s :=
  SourceTable.orderly_source s _ _

namespace Controller

theorem orderly_topology (c : Controller) :
    c.topologyHolder.source.Orderly c.topologyHolder.strategy := by
  show (if c.topologyFromTable then _ else _ : Source _ _).Orderly _
  cases c.topologyFromTable with
  | true => exact Surroundings.orderly_tableSource _
  | false => exact (Source.silent_ofRegistry _).orderly _

theorem orderly_configs (c : Controller) :
    c.configsHolder.source.Orderly c.configsHolder.strategy :=
  Surroundings.orderly_tableSource (.configs c.settings.configs)

end Controller

namespace Holder
variable {ω α : Type}

/-! ### Operations -/

/-- Sending does not touch the held state. -/
theorem publish_preserves {P : Held α → Prop} (h : Holder ω α) (e : Envelope) :
    (h.publish e).Preserves fun site => P site.held := by
  intro site hp
  rw [Op.on, publish]
  cases h.transport.send e site.world <;> exact hp

section
variable {P : Site ω α → Prop} {h : Holder ω α} (hpublish : ∀ e, (h.publish e).Preserves P)
include hpublish

/-- What sending keeps, announcing keeps. -/
theorem announce_preserves (e : Event α) : (h.announce e).Preserves P := by
  refine (Op.preserves_ofExcept _).bind fun envelopes => ?_
  exact Op.Preserves.forM hpublish envelopes

theorem announceHeld_preserves (e : Event α) : (h.announceHeld e).Preserves P :=
  Op.preserves_get.bind fun _ => announce_preserves hpublish _

/-- What applying an event and sending keep, an update with it keeps. -/
theorem update_preserves_of_apply [Wire α] {e : Event α} (happly : (h.apply e).Preserves P) :
    (h.update e).Preserves P := by
  refine happly.bind fun changed => ?_
  cases changed with
  | true => exact (announceHeld_preserves hpublish e).bind fun _ => Op.preserves_pure true
  | false => exact Op.preserves_pure false

end

/-- An announcement, made or not, leaves the held state alone. -/
theorem held_announce_if (h : Holder ω α) (e : Event α) (announced : Bool) (site : Site ω α) :
    ((do if announced then h.announceHeld e
         return announced : Op (Site ω α) Bool).on site).2.held = site.held := by
  have hkeeps := announceHeld_preserves (h.publish_preserves (P := (· = site.held))) e
  cases announced with
  | false => rfl
  | true => exact (hkeeps.bind fun _ => Op.preserves_pure true) site rfl

section
variable [Wire α] {h : Holder ω α}

/-- What asking the source keeps, a fresh build keeps. -/
theorem currentData_preserves {P : Site ω α → Prop} (hsource : h.source.Preserves P) :
    h.currentData.Preserves P := by
  refine hsource.scopes.bind fun scopes => ?_
  refine Op.Preserves.bind (Op.Preserves.mapM (fun scope => ?_) scopes) fun entries =>
    Op.preserves_pure _
  exact (hsource.fetch scope).bind fun value => Op.preserves_pure (scope, value)

/-- A scope that is held is answered from what is held, and nothing else happens. -/
theorem on_scopeUpdateIfChanged_of_held {scope : ScopeKey} {value : α} {site : Site ω α}
    (hheld : site.held.scopes.get? scope = some value) (prior : Fingerprint) :
    (h.scopeUpdateIfChanged scope prior).on site = (.ok (Held.scopeAnswer scope value prior), site) := by
  rw [scopeUpdateIfChanged, Op.on_bind_of_ok (Op.on_get site), hheld]
  rfl

section
variable {site asked : Site ω α} {current : Event α} (hdata : h.currentData.on site = (.ok current, asked))
include hdata

/-- Once the source has answered, a load is a swap. -/
theorem on_load_of_build : h.load.on site = (.ok (asked.held.swap current.scopes).2,
    { asked with held := (asked.held.swap current.scopes).1 }) := by
  rw [load, Op.on_bind_of_ok hdata]
  rfl

/-- A resync is a swap that is announced if it moved the fingerprint. -/
theorem on_resync_of_build : h.resync.on site =
    (do if (asked.held.swap current.scopes).2 then h.announceHeld current
        return (asked.held.swap current.scopes).2 : Op (Site ω α) Bool).on
      { asked with held := (asked.held.swap current.scopes).1 } := by
  rw [resync, Op.on_bind_of_ok hdata]
  rfl

end

variable {P : Held α → Prop} (hkept : Held.Kept h.strategy P)
include hkept

theorem swap_preserves (scopes : OrdMap ScopeKey α) :
    (swap scopes : Op (Site ω α) Bool).Preserves fun site => P site.held := by
  intro site hp
  exact hkept _ _ (.swapped site.held scopes) hp

theorem storeFetched_preserves (scope : ScopeKey) (value : α) :
    (storeFetched scope value : Op (Site ω α) α).Preserves fun site => P site.held := by
  intro site hp
  exact hkept _ _ (.fetched site.held scope value) hp

theorem apply_preserves (e : Event α) : (h.apply e).Preserves fun site => P site.held :=
  h.strategy.applyAt_preserves hkept e

theorem update_preserves (e : Event α) : (h.update e).Preserves fun site => P site.held :=
  update_preserves_of_apply h.publish_preserves (apply_preserves hkept e)

variable (hsource : h.source.Preserves fun site => P site.held)
include hsource

theorem load_preserves : h.load.Preserves fun site => P site.held :=
  (currentData_preserves hsource).bind fun current => swap_preserves hkept current.scopes

theorem resync_preserves : h.resync.Preserves fun site => P site.held := by
  refine (currentData_preserves hsource).bind fun current => ?_
  refine (swap_preserves hkept current.scopes).bind fun moved => ?_
  cases moved with
  | true => exact (announceHeld_preserves h.publish_preserves current).bind fun _ => Op.preserves_pure true
  | false => exact Op.preserves_pure false

theorem scopeUpdateIfChanged_preserves (scope : ScopeKey) (prior : Fingerprint) :
    (h.scopeUpdateIfChanged scope prior).Preserves fun site => P site.held := by
  refine Op.preserves_get.bind fun site => ?_
  cases site.held.scopes.get? scope with
  | some value => exact Op.preserves_pure _
  | none =>
    refine (hsource.fetch scope).bind fun fetched => ?_
    exact (storeFetched_preserves hkept scope fetched).bind fun value => Op.preserves_pure _

end

section
variable [Wire α] (h : Holder ω α) {Q : List Envelope → ω → Prop}

/-- Applying an event is a matter of the held state and the count alone. -/
theorem apply_preserves_outside (e : Event α) :
    (h.apply e).Preserves fun site => Q site.sent site.world := by
  intro site hq
  rw [Op.on, apply, Strategy.applyAt]
  cases site.held.apply h.strategy e <;> exact hq

variable (hsource : h.source.Preserves fun site => Q site.sent site.world)
include hsource

/-- So is a load, apart from asking the source. -/
theorem load_preserves_outside : h.load.Preserves fun site => Q site.sent site.world :=
  (currentData_preserves hsource).bind fun _ _ hq => hq

theorem scopeUpdateIfChanged_preserves_outside (scope : ScopeKey) (prior : Fingerprint) :
    (h.scopeUpdateIfChanged scope prior).Preserves fun site => Q site.sent site.world := by
  refine Op.preserves_get.bind fun site => ?_
  cases site.held.scopes.get? scope with
  | some value => exact Op.preserves_pure _
  | none =>
    refine (hsource.fetch scope).bind fun fetched => ?_
    exact Op.Preserves.bind (fun _ hq => hq) fun value => Op.preserves_pure _

end

/-! ### Calls and runs -/

/-- The calls that may replace the held state. -/
inductive Call (α : Type) where
  | load
  | resync
  | apply (e : Event α)
  | update (e : Event α)
  | scopeUpdateIfChanged (scope : ScopeKey) (prior : Fingerprint)

/-- What happens to a holder: it is called, or something happens outside of it. -/
inductive Step (ω α : Type) where
  | call (c : Call α)
  | outside (change : ω → ω)

variable [Wire α]

/-- Makes a call, whatever it answers. -/
def Call.perform (h : Holder ω α) : Call α → Op (Site ω α) Unit
  | load => do let _ ← h.load
  | resync => do let _ ← h.resync
  | apply e => do let _ ← h.apply e
  | update e => do let _ ← h.update e
  | scopeUpdateIfChanged scope prior => do let _ ← h.scopeUpdateIfChanged scope prior

/-- The site after a step. A call that fails leaves what it has done by then. -/
def Step.next (h : Holder ω α) (site : Site ω α) : Step ω α → Site ω α
  | call c => ((c.perform h).on site).2
  | outside change => { site with world := change site.world }

/-- The site after a run. -/
def run (h : Holder ω α) (steps : List (Step ω α)) (site : Site ω α) : Site ω α :=
  steps.foldl (Step.next h) site

section
variable {P : Held α → Prop} {h : Holder ω α} (hkept : Held.Kept h.strategy P)
  (hsource : h.source.Orderly h.strategy)
include hkept hsource

/-- Every call keeps what stores keep. -/
theorem Call.perform_preserves (c : Call α) : (c.perform h).Preserves fun site => P site.held := by
  have hasked : h.source.Preserves fun site => P site.held := hsource.preserves hkept
  cases c with
  | load => exact (load_preserves hkept hasked).bind fun _ => Op.preserves_pure ()
  | resync => exact (resync_preserves hkept hasked).bind fun _ => Op.preserves_pure ()
  | apply e => exact (apply_preserves hkept e).bind fun _ => Op.preserves_pure ()
  | update e => exact (update_preserves hkept e).bind fun _ => Op.preserves_pure ()
  | scopeUpdateIfChanged scope prior =>
    exact (scopeUpdateIfChanged_preserves hkept hasked scope prior).bind fun _ => Op.preserves_pure ()

theorem Step.next_preserves (step : Step ω α) {site : Site ω α} (hp : P site.held) :
    P (step.next h site).held := by
  cases step with
  | call c => exact c.perform_preserves hkept hsource site hp
  | outside change => exact hp

/-- Every run keeps what stores keep. -/
theorem run_preserves (steps : List (Step ω α)) {site : Site ω α} (hp : P site.held) :
    P (h.run steps site).held := by
  induction steps generalizing site with
  | nil => exact hp
  | cons step steps ih => exact ih (step.next_preserves hkept hsource hp)

end

/-! ### What a call leaves -/

/-- What is held after a call, over a source that leaves the held state alone. -/
def Call.leaves (h : Holder ω α) (site : Site ω α) : Call α → Held α
  | load | resync =>
    match (h.currentData.on site).1 with
    | .ok current => (site.held.swap current.scopes).1
    | .error _ => site.held
  | apply e | update e =>
    match site.held.apply h.strategy e with
    | .ok (next, _) => next
    | .error _ => site.held
  | scopeUpdateIfChanged scope _ =>
    match site.held.scopes.get? scope, ((h.source.fetch scope).on site).1 with
    | none, .ok value => (site.held.storeFetched scope value).1
    | _, _ => site.held

section
variable {h : Holder ω α}

theorem held_apply (h : Holder ω α) (e : Event α) (site : Site ω α) :
    ((h.apply e).on site).2.held = (Call.apply e).leaves h site := by
  rw [Call.leaves, apply, Op.on, Strategy.applyAt]
  cases site.held.apply h.strategy e <;> rfl

theorem held_update (h : Holder ω α) (e : Event α) (site : Site ω α) :
    ((h.update e).on site).2.held = (Call.update e).leaves h site := by
  have happly : ((h.apply e).on site).2.held = (Call.update e).leaves h site := h.held_apply e site
  rcases hr : (h.apply e).on site with ⟨f | changed, after⟩
  · rw [update, Op.on_bind_of_error hr, ← happly, hr]
  · rw [update, Op.on_bind_of_ok hr, ← happly, hr]
    exact h.held_announce_if e changed after

/-- A load leaves what it should if the source left the held state alone. -/
theorem held_load_of_asked {site : Site ω α} (hasked : (h.currentData.on site).2.held = site.held) :
    (h.load.on site).2.held = Call.load.leaves h site := by
  rcases hdata : h.currentData.on site with ⟨f | current, asked⟩
  · rw [load, Op.on_bind_of_error hdata, Call.leaves, hdata, ← hasked, hdata]
  · rw [on_load_of_build hdata, Call.leaves, hdata, ← hasked, hdata]

variable (hsilent : h.source.Silent)
include hsilent

theorem held_currentData (site : Site ω α) : (h.currentData.on site).2.held = site.held :=
  currentData_preserves (hsilent site.held) site rfl

theorem held_load (site : Site ω α) : (h.load.on site).2.held = Call.load.leaves h site :=
  held_load_of_asked (held_currentData hsilent site)

theorem held_resync (site : Site ω α) : (h.resync.on site).2.held = Call.resync.leaves h site := by
  have hasked := held_currentData hsilent site
  rcases hdata : h.currentData.on site with ⟨f | current, asked⟩
  · rw [resync, Op.on_bind_of_error hdata, Call.leaves, hdata, ← hasked, hdata]
  · rw [on_resync_of_build hdata, Call.leaves, hdata, ← hasked, hdata]
    exact h.held_announce_if current _ _

theorem held_scopeUpdateIfChanged (scope : ScopeKey) (prior : Fingerprint) (site : Site ω α) :
    ((h.scopeUpdateIfChanged scope prior).on site).2.held =
      (Call.scopeUpdateIfChanged scope prior).leaves h site := by
  have hasked : ((h.source.fetch scope).on site).2.held = site.held :=
    (hsilent site.held).fetch scope site rfl
  rw [scopeUpdateIfChanged, Op.on_bind_of_ok (Op.on_get site), Call.leaves]
  cases site.held.scopes.get? scope with
  | some value => rfl
  | none =>
    show ((do let fetched ← h.source.fetch scope
              let value ← storeFetched scope fetched
              return Held.scopeAnswer scope value prior : Op (Site ω α) (Event α)).on site).2.held = _
    rcases hfetch : (h.source.fetch scope).on site with ⟨f | value, asked⟩
    · rw [Op.on_bind_of_error hfetch, ← hasked, hfetch]
    · rw [Op.on_bind_of_ok hfetch, Op.snd_on_bind_pure, ← hasked, hfetch]
      rfl

theorem Call.held_perform (c : Call α) (site : Site ω α) :
    ((c.perform h).on site).2.held = c.leaves h site := by
  cases c with
  | load => exact (congrArg Site.held (Op.snd_on_bind_pure ..)).trans (held_load hsilent site)
  | resync => exact (congrArg Site.held (Op.snd_on_bind_pure ..)).trans (held_resync hsilent site)
  | apply e => exact (congrArg Site.held (Op.snd_on_bind_pure ..)).trans (h.held_apply e site)
  | update e => exact (congrArg Site.held (Op.snd_on_bind_pure ..)).trans (h.held_update e site)
  | scopeUpdateIfChanged scope prior =>
    exact (congrArg Site.held (Op.snd_on_bind_pure ..)).trans
      (held_scopeUpdateIfChanged hsilent scope prior site)

end
end Holder
end FleetSync
