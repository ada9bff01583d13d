import FleetSync.Proofs.Holder.Hosts
import FleetSync.Proofs.Ledger

/-!
The diaries of a holder.

A holder notes every event that it merged, and every envelope that its transport took, when they are: an event
before it is announced, so a refused envelope takes nothing back, and none that cannot be merged. Builds and
loads on demand note nothing of their own, but their source may come back to the holder while it is asked
(`Holder.Counted`). The diaries of the calls follow from this, call by call.
-/
namespace FleetSync

/-- How many events were applied with a change, or without one. -/
def Tally.get (t : Tally) (changed : Bool) : Nat := if changed then t.changed else t.unchanged

theorem Tally.get_count (t : Tally) (changed b : Bool) :
    (t.count changed).get b = t.get b + if b = changed then 1 else 0 := by
  cases changed <;> cases b <;> rfl

/-- The ledger with what is counted at the site of the holder of a name. -/
def Site.ledger {ω α : Type} (published : ω → String → Nat) (name : String) (rest : Ledger)
    (site : Site ω α) : Ledger where
  published := published site.world
  updates := fun holder => if holder = name then site.tally.get else rest.updates holder
  injected := rest.injected
  sent := site.sent

/-- What applying an event comes to. An event that cannot be merged comes to nothing. -/
def Strategy.diaryOfApply {ω α : Type} [Wire α] (s : Strategy α) (e : Event α) : Diary (Site ω α) := fun site =>
  match site.held.apply s e with
  | .ok (_, changed) => [.merged s.name changed]
  | .error _ => []

theorem Strategy.accounts_applyAt {ω α : Type} [Wire α] (s : Strategy α) (published : ω → String → Nat)
    (rest : Ledger) (e : Event α) :
    (s.applyAt e : Op (Site ω α) Bool).Accounts (Site.ledger published s.name rest) (s.diaryOfApply e) := by
  intro site
  rw [Op.on, applyAt, diaryOfApply]
  cases site.held.apply s e with
  | error f => rfl
  | ok r =>
    refine Ledger.ext rfl ?_ rfl rfl
    funext holder b
    show (if holder = s.name then (site.tally.count r.2).get else rest.updates holder) b =
      (if holder = s.name then site.tally.get else rest.updates holder) b +
        if holder = s.name ∧ b = r.2 then 1 else 0
    by_cases hname : holder = s.name
    · simp only [hname, if_true, Tally.get_count, true_and]
    · simp only [hname, if_false, false_and, Nat.add_zero]

namespace Holder
variable {ω α : Type}

/-! ### Diaries -/

def diaryOfPublish (h : Holder ω α) (e : Envelope) : Diary (Site ω α) := fun site =>
  match h.transport.send e site.world with
  | .ok _ _ => [.accepted e]
  | .error _ _ => []

/-- The announcement of an event: each envelope of it, up to the first that is refused. -/
def diaryOfAnnouncement (h : Holder ω α) (e : Event α) : Diary (Site ω α) := fun site =>
  match h.strategy.outbound (e.withFingerprint site.held.fingerprint) with
  | .ok envelopes => Diary.each h.publish h.diaryOfPublish envelopes site
  | .error _ => []

section
variable [Wire α]

def diaryOfUpdate (h : Holder ω α) (e : Event α) : Diary (Site ω α) :=
  (h.strategy.diaryOfApply e).andThen (h.apply e) fun changed =>
    if changed then h.diaryOfAnnouncement e else .nothing

variable (h : Holder ω α) (asking : ScopeKey → Diary (Site ω α))

/-- A fresh build, given what fetching a scope comes to. -/
def diaryOfBuild : Diary (Site ω α) :=
  Diary.nothing.andThen h.source.scopes (Diary.each h.source.fetch asking)

def diaryOfResync : Diary (Site ω α) :=
  (h.diaryOfBuild asking).andThen h.currentData fun current =>
    Diary.nothing.andThen (swap current.scopes) fun moved =>
      if moved then h.diaryOfAnnouncement current else .nothing

/-- A scope that is asked for: it is fetched if it is not held. -/
def diaryOfDemand (scope : ScopeKey) : Diary (Site ω α) := fun site =>
  match site.held.scopes.get? scope with
  | some _ => []
  | none => asking scope site

end

/-- A refresh: everything is fetched, and then each host is updated. -/
def diaryOfRefresh (h : Holder ω HostConfigs) (asking : ScopeKey → Diary (Site ω HostConfigs))
    (registry : Registry) (cluster : ClusterId) (hosts : List HostId) : Diary (Site ω HostConfigs) :=
  let targets := (registry.refreshTargets cluster hosts).toOption.getD []
  (Diary.each (fun host => h.source.fetch (Decimal.idText host)) (fun host => asking (Decimal.idText host))
    targets).andThen (h.fetchTargets registry cluster hosts)
    (Diary.each (fun p : HostId × HostConfigs => h.updateHost p.1 p.2)
      fun p => h.diaryOfUpdate (.single (Decimal.idText p.1) p.2 .update))

/-! ### What merges nothing -/

section
variable (h : Holder ω α)

/-- Announcements take envelopes only. -/
theorem mergesNothing_announcement (e : Event α) (P : Site ω α → Prop) :
    (h.diaryOfAnnouncement e).MergesNothing P := by
  intro site _
  rw [diaryOfAnnouncement]
  cases h.strategy.outbound (e.withFingerprint site.held.fingerprint) with
  | error f => exact fun _ _ => List.not_mem_nil
  | ok envelopes =>
    have hsend : ∀ envelope, (h.diaryOfPublish envelope).MergesNothing fun _ => True := by
      intro envelope now _ holder changed
      rw [diaryOfPublish]
      cases h.transport.send envelope now.world <;> simp
    exact Diary.MergesNothing.each hsend (fun _ _ _ => trivial) envelopes site trivial

theorem count_merged_apply [Wire α] (e : Event α) (site : Site ω α) (holder : String) (changed : Bool) :
    (h.strategy.diaryOfApply e site).count (.merged holder changed) =
      if holder = h.strategy.name ∧ ((h.apply e).on site).1.toOption = some changed then 1 else 0 := by
  rw [Op.on, Holder.apply, Strategy.applyAt, Strategy.diaryOfApply]
  cases site.held.apply h.strategy e with
  | error f => simp [Except.toOption]
  | ok r => simp only [List.count_singleton, beq_iff_eq, Occurrence.merged.injEq, Except.toOption, Option.some.injEq,
      eq_comm (a := holder)]

/-- An update is merged if its event can be applied, whatever becomes of its announcement. -/
theorem count_merged_update [Wire α] (e : Event α) (site : Site ω α) (holder : String) (changed : Bool) :
    (h.diaryOfUpdate e site).count (.merged holder changed) =
      if holder = h.strategy.name ∧ ((h.apply e).on site).1.toOption = some changed then 1 else 0 := by
  rw [diaryOfUpdate, Diary.andThen, List.count_append, count_merged_apply, Nat.add_eq_left, List.count_eq_zero]
  rcases (h.apply e).on site with ⟨f | moved, now⟩
  · exact List.not_mem_nil
  · cases moved with
    | false => exact List.not_mem_nil
    | true => exact h.mergesNothing_announcement e (fun _ => True) now trivial holder changed

end

section
variable {h : Holder ω α} {asking : ScopeKey → Diary (Site ω α)} {P : Site ω α → Prop}
  (hsource : h.source.Preserves P) (hasking : ∀ scope, (asking scope).MergesNothing P)
include hasking

theorem mergesNothing_demand (scope : ScopeKey) : (diaryOfDemand asking scope).MergesNothing P := by
  intro site hsite
  rw [diaryOfDemand]
  cases site.held.scopes.get? scope with
  | some value => exact fun _ _ => List.not_mem_nil
  | none => exact hasking scope site hsite

include hsource

theorem mergesNothing_build : (h.diaryOfBuild asking).MergesNothing P :=
  Diary.MergesNothing.nothing.andThen hsource.scopes fun scopes =>
    Diary.MergesNothing.each hasking hsource.fetch scopes

theorem mergesNothing_resync [Wire α] : (h.diaryOfResync asking).MergesNothing P := by
  refine (mergesNothing_build hsource hasking).andThen (currentData_preserves hsource) fun current => ?_
  intro site _
  refine Diary.MergesNothing.andThen (P := fun _ => True) .nothing (fun _ _ => trivial) (fun moved => ?_) site trivial
  cases moved with
  | false => exact .nothing
  | true => exact h.mergesNothing_announcement current _

end

/-! ### Accounting -/

/-- The transport of the holder is counted, listing scopes comes to nothing, and `asking` says what fetching
one comes to. -/
structure Counted (h : Holder ω α) (published : ω → String → Nat) (asking : ScopeKey → Diary (Site ω α)) :
    Prop where
  transport : h.transport.Counts published
  scopes : ∀ rest, h.source.scopes.Accounts (Site.ledger published h.strategy.name rest) .nothing
  fetch : ∀ rest scope, (h.source.fetch scope).Accounts (Site.ledger published h.strategy.name rest)
    (asking scope)

section
variable {h : Holder ω α} {published : ω → String → Nat} (htransport : h.transport.Counts published)
  (name : String) (rest : Ledger)
include htransport

theorem accounts_publish (e : Envelope) :
    (h.publish e).Accounts (Site.ledger published name rest) (h.diaryOfPublish e) := by
  intro site
  have hcount := htransport e site.world
  rw [on_publish, diaryOfPublish]
  cases hsend : h.transport.send e site.world <;> rw [hsend] at hcount <;>
    exact Ledger.ext hcount rfl rfl rfl

theorem accounts_announceHeld (e : Event α) :
    (h.announceHeld e).Accounts (Site.ledger published name rest) (h.diaryOfAnnouncement e) := by
  intro site
  rw [diaryOfAnnouncement]
  cases hout : h.strategy.outbound (e.withFingerprint site.held.fingerprint) with
  | error f =>
    rw [announceHeld, Op.on_bind_of_ok (Op.on_get site), announce, hout]
    rfl
  | ok envelopes =>
    rw [on_announceHeld hout]
    exact Op.Accounts.forM (accounts_publish htransport name rest) envelopes site

/-- An announcement, made or not. -/
theorem accounts_announce_if (e : Event α) (announced : Bool) :
    (do if announced then h.announceHeld e
        return announced : Op (Site ω α) Bool).Accounts (Site.ledger published name rest)
      (if announced then h.diaryOfAnnouncement e else .nothing) := by
  cases announced with
  | false => exact Op.accounts_nothing fun _ => rfl
  | true => exact (accounts_announceHeld htransport name rest e).map fun _ => true

theorem accounts_update [Wire α] (rest : Ledger) (e : Event α) :
    (h.update e).Accounts (Site.ledger published h.strategy.name rest) (h.diaryOfUpdate e) :=
  (h.strategy.accounts_applyAt published rest e).bind fun changed =>
    accounts_announce_if htransport h.strategy.name rest e changed

end

namespace Counted
variable [Wire α] {h : Holder ω α} {published : ω → String → Nat} {asking : ScopeKey → Diary (Site ω α)}
  (hcounted : h.Counted published asking) (rest : Ledger)
include hcounted

theorem currentData :
    h.currentData.Accounts (Site.ledger published h.strategy.name rest) (h.diaryOfBuild asking) := by
  refine (hcounted.scopes rest).bind fun scopes => ?_
  exact (Op.Accounts.mapM_map (hcounted.fetch rest) Prod.mk scopes).map _

theorem load : h.load.Accounts (Site.ledger published h.strategy.name rest) (h.diaryOfBuild asking) :=
  (hcounted.currentData rest).followed fun _ _ => rfl

theorem resync :
    h.resync.Accounts (Site.ledger published h.strategy.name rest) (h.diaryOfResync asking) := by
  refine (hcounted.currentData rest).bind fun current => ?_
  refine Op.Accounts.bind (Op.accounts_nothing fun _ => rfl) fun moved => ?_
  exact accounts_announce_if hcounted.transport h.strategy.name rest current moved

theorem scopeUpdateIfChanged (scope : ScopeKey) (prior : Fingerprint) :
    (h.scopeUpdateIfChanged scope prior).Accounts (Site.ledger published h.strategy.name rest)
      (diaryOfDemand asking scope) := by
  intro site
  rw [diaryOfDemand]
  cases hheld : site.held.scopes.get? scope with
  | some value =>
    rw [on_scopeUpdateIfChanged_of_held hheld]
    rfl
  | none =>
    rw [Holder.scopeUpdateIfChanged, Op.on_bind_of_ok (Op.on_get site), hheld]
    exact (hcounted.fetch rest scope).followed (fun _ _ => rfl) site

end Counted

theorem Counted.refreshHosts {h : Holder ω HostConfigs} {published : ω → String → Nat}
    {asking : ScopeKey → Diary (Site ω HostConfigs)} (hcounted : h.Counted published asking) (rest : Ledger)
    (registry : Registry) (cluster : ClusterId) (hosts : List HostId) :
    (h.refreshHosts registry cluster hosts).Accounts (Site.ledger published h.strategy.name rest)
      (h.diaryOfRefresh asking registry cluster hosts) := by
  rw [refreshHosts_eq]
  refine Op.Accounts.bind ?_ fun fetched => Op.Accounts.map (Op.Accounts.mapM (fun p => ?_) fetched) _
  · rw [fetchTargets]
    cases registry.refreshTargets cluster hosts with
    | error f => exact Op.accounts_nothing fun _ => rfl
    | ok targets => exact Op.Accounts.mapM_map (fun host => hcounted.fetch rest _) Prod.mk targets
  · exact accounts_update hcounted.transport rest _

end Holder
end FleetSync
