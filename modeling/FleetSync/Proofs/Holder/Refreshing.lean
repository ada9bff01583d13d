import FleetSync.Proofs.Holder.Addressing

/-!
A refresh fetches all of its targets before it applies the first.

The targets are given, or those of a cluster, or all registered hosts (`Registry.Targets`). They are fetched in
this order, and the first one that cannot be fetched is the end of the refresh. What was fetched is then
written host by host, and told host by host, so a transport that refuses one of these envelopes leaves that
host written, but not told (`Holder.on_updateHost`). Writing snapshots one after another lays them over what was
held (`Held.Overlaid`).
-/
namespace FleetSync

/-! ### Targets -/

/-- The hosts to refresh: those that are given, else those of the view of a cluster, else, if it has none, all
that are registered, in ascending order. -/
inductive Registry.Targets (r : Registry) (cluster : ClusterId) : List HostId → List HostId → Prop
  | given {hosts : List HostId} (hgiven : hosts ≠ []) : Targets r cluster hosts hosts
  | ofCluster {view : ClusterView} (hview : r.cluster? cluster = some view) (hhosts : view.hosts ≠ []) :
      Targets r cluster [] (view.hosts.map (·.id))
  | registered {view : ClusterView} {ids : List HostId} (hview : r.cluster? cluster = some view)
      (hhosts : view.hosts = []) (hascending : ids.Pairwise (· < ·))
      (hall : ∀ id, id ∈ ids ↔ ∃ name, r.hostName? id = some name) : Targets r cluster [] ids

namespace Registry
variable {r : Registry} {cluster : ClusterId} {hosts targets : List HostId}

theorem refreshTargets_eq_ok_iff :
    r.refreshTargets cluster hosts = .ok targets ↔ r.Targets cluster hosts targets := by
  constructor
  · intro h
    cases hosts with
    | cons host rest =>
      cases h
      exact .given (List.cons_ne_nil _ _)
    | nil =>
      rw [refreshTargets] at h
      cases hview : r.cluster? cluster with
      | none =>
        rw [hview] at h
        cases h
      | some view =>
        rw [hview] at h
        cases h
        split
        next hempty =>
          exact .registered hview (List.isEmpty_iff.1 hempty) r.hostIds_ascending fun _ => mem_hostIds_iff
        next hne => exact .ofCluster hview fun hnil => hne (List.isEmpty_iff.2 hnil)
  · rintro (hgiven | ⟨hview, hhosts⟩ | ⟨hview, hhosts, hascending, hall⟩)
    · obtain ⟨host, rest, rfl⟩ := List.exists_cons_of_ne_nil hgiven
      rfl
    · rw [refreshTargets, hview]
      exact congrArg Except.ok (if_neg fun hempty => hhosts (List.isEmpty_iff.1 hempty))
    · have hids : targets = r.hostIds :=
        OrdSet.eq_of_mem_iff hascending r.hostIds_ascending fun id => (hall id).trans mem_hostIds_iff.symm
      rw [refreshTargets, hview, hids]
      exact congrArg Except.ok (if_pos (List.isEmpty_iff.2 hhosts))

theorem refreshTargets_eq_error_iff {f : Fault} : r.refreshTargets cluster hosts = .error f ↔
    hosts = [] ∧ r.cluster? cluster = none ∧ f = .scopeNotFound (Decimal.idText cluster) := by
  cases hosts with
  | cons => exact iff_of_false nofun nofun
  | nil =>
    rw [refreshTargets]
    cases r.cluster? cluster with
    | none => simp [eq_comm]
    | some view => exact iff_of_false nofun nofun

end Registry

/-! ### Snapshots over what was held -/

theorem Strategy.hostOfScope_idText (host : HostId) : hostOfScope (Decimal.idText host) = .ok host :=
  hostOfScope_eq_ok_iff.2 (Decimal.int64?_idText host)

namespace Held

/-- The snapshots of some hosts laid over some scopes: each host has its last snapshot, and what is held for
no host among them is as it was. -/
structure Overlaid (fetched : List (HostId × HostConfigs)) (before after : OrdMap ScopeKey HostConfigs) :
    Prop where
  refreshed : ∀ first host configs rest, fetched = first ++ (host, configs) :: rest →
    (∀ p ∈ rest, p.1 ≠ host) → after.get? (Decimal.idText host) = some configs
  others : ∀ scope, (∀ p ∈ fetched, scope ≠ Decimal.idText p.1) → after.get? scope = before.get? scope

/-- Writes the snapshot of a host. -/
def writeHost (scopes : OrdMap ScopeKey HostConfigs) (p : HostId × HostConfigs) : OrdMap ScopeKey HostConfigs :=
  scopes.insert (Decimal.idText p.1) p.2

theorem overlaid_writes (fetched : List (HostId × HostConfigs)) (scopes : OrdMap ScopeKey HostConfigs) :
    Overlaid fetched scopes (fetched.foldl writeHost scopes) := by
  have hothers : ∀ (l : List (HostId × HostConfigs)) (scopes : OrdMap ScopeKey HostConfigs) scope,
      (∀ p ∈ l, scope ≠ Decimal.idText p.1) → (l.foldl writeHost scopes).get? scope = scopes.get? scope := by
    intro l
    induction l with
    | nil => exact fun _ _ _ => rfl
    | cons p l ih =>
      intro scopes scope hscope
      obtain ⟨hp, hl⟩ := List.forall_mem_cons.1 hscope
      rw [List.foldl_cons, ih _ scope hl, writeHost, OrdMap.get?_insert, if_neg hp]
  refine ⟨?_, hothers fetched scopes⟩
  rintro first host configs rest rfl hlast
  rw [List.foldl_append, List.foldl_cons, hothers rest, writeHost, OrdMap.get?_insert, if_pos rfl]
  exact fun p hp hsame => hlast p hp (Decimal.idText_inj.1 hsame).symm

/-- Updating the snapshot of a host always succeeds, and is a change. -/
theorem apply_host (settings : ConfigsSettings) (held : Held HostConfigs) (host : HostId)
    (configs : HostConfigs) :
    held.apply (.configs settings) (.single (Decimal.idText host) configs .update) =
      .ok (ofScopes (writeHost held.scopes (host, configs)), true) := by
  obtain ⟨v, hv⟩ : ∃ v, Strategy.replaceScope (Decimal.idText host)
      (held.scopes.get? (Decimal.idText host)) configs .update = .ok v := by
    cases held.scopes.get? (Decimal.idText host) <;> exact ⟨_, rfl⟩
  have hverdict : verdictOn (.configs settings) .update held.scopes (Decimal.idText host, configs) = .ok v :=
    bind_eq_ok_iff.2 ⟨host, Strategy.hostOfScope_idText host, hv⟩
  obtain ⟨hsettle, hchange⟩ := settle_replaceScope (p := (Decimal.idText host, configs)) hv
  rw [apply, mergeScopes_single _ .update (Decimal.idText host, configs), hverdict]
  show Except.ok (if v.isChange then _ else _, v.isChange) = _
  rw [hsettle, hchange]
  rfl

end Held

namespace Holder
variable {ω : Type} {h : Holder ω HostConfigs} {settings : ConfigsSettings}

/-! ### Telling hosts -/

/-- What a host is told of its snapshot. -/
def hostUpdate (settings : ConfigsSettings) (p : HostId × HostConfigs) : Envelope :=
  ⟨.host p.1 settings.destination, .configs
    ((Event.single (Decimal.idText p.1) p.2 .update).withFingerprint (scopeFingerprint p.2))⟩

section
variable (hstrategy : h.strategy = .configs settings)
include hstrategy

/-- The snapshot of a host is written, and then the host is told, if the transport takes it. -/
theorem on_updateHost (p : HostId × HostConfigs) (site : Site ω HostConfigs) :
    let written : Site ω HostConfigs := { site with
      held := .ofScopes (Held.writeHost site.held.scopes p)
      tally := site.tally.count true }
    (h.updateHost p.1 p.2).on site =
      match h.transport.send (hostUpdate settings p) site.world with
      | .ok () world => (.ok true, { written with world, sent := site.sent ++ [hostUpdate settings p] })
      | .error f world => (.error f, { written with world }) := by
  intro written
  have happlied : (h.apply (.single (Decimal.idText p.1) p.2 .update)).on site = (.ok true, written) := by
    rw [on_apply, hstrategy, Held.apply_host]
  have hout : h.strategy.outbound
      ((Event.single (Decimal.idText p.1) p.2 .update).withFingerprint written.held.fingerprint) =
        .ok [hostUpdate settings p] := by
    rw [hstrategy]
    exact mapM_eq_ok_iff.2 (.cons (bind_eq_ok_iff.2 ⟨p.1, Strategy.hostOfScope_idText p.1, rfl⟩) .nil)
  rw [updateHost, update, Op.on_bind_of_ok happlied]
  show (h.announceHeld _ >>= fun _ => pure true).on written = _
  rw [Op.on_bind, on_announceHeld hout, List.forM_eq_forM, List.forM_cons, Op.on_bind, on_publish]
  cases h.transport.send (hostUpdate settings p) site.world <;> rfl

/-- Hosts are written and told one after another, as long as the transport takes what they are told. -/
theorem passes_updates {fetched : List (HostId × HostConfigs)} {site : Site ω HostConfigs} {world : ω}
    (htakes : h.transport.Takes (fetched.map (hostUpdate settings)) site.world world) :
    ∃ after, Op.Passes (fun p : HostId × HostConfigs => h.updateHost p.1 p.2) fetched
        (List.replicate fetched.length true) site after ∧
      after.world = world ∧ after.sent = site.sent ++ fetched.map (hostUpdate settings) ∧
      after.held.scopes = fetched.foldl Held.writeHost site.held.scopes := by
  induction fetched generalizing site with
  | nil =>
    cases htakes
    exact ⟨site, .nil, rfl, (List.append_nil _).symm, rfl⟩
  | cons p fetched ih =>
    cases htakes with
    | @cons _ _ _ next _ hsend htakes =>
      have hupdate := on_updateHost hstrategy p site
      rw [hsend] at hupdate
      -- the rest is written and told from the site that this update leaves
      let told : Site ω HostConfigs := {
        held := .ofScopes (Held.writeHost site.held.scopes p)
        tally := site.tally.count true
        sent := site.sent ++ [hostUpdate settings p]
        world := next }
      obtain ⟨after, hpasses, hworld, hsent, hheld⟩ := @ih told htakes
      refine ⟨after, .cons hupdate hpasses, hworld, ?_, hheld⟩
      rw [hsent, List.append_assoc]
      rfl

/-- The first host whose envelope is refused is written as well, and those before it are told. -/
theorem updates_fail {told : List (HostId × HostConfigs)} {p : HostId × HostConfigs} {site : Site ω HostConfigs}
    {world : ω} {f : Fault}
    (hrefuses : h.transport.RefusesAfter (told.map (hostUpdate settings)) (hostUpdate settings p) site.world f
      world) :
    ∃ after, Op.FailsAfter (fun p : HostId × HostConfigs => h.updateHost p.1 p.2) told p site f after ∧
      after.world = world ∧ after.sent = site.sent ++ told.map (hostUpdate settings) ∧
      after.held.scopes = (told ++ [p]).foldl Held.writeHost site.held.scopes := by
  obtain ⟨between, htakes, hsend⟩ := hrefuses
  obtain ⟨next, hpasses, rfl, hsent, hheld⟩ := passes_updates hstrategy htakes
  have hupdate := on_updateHost hstrategy p next
  rw [hsend] at hupdate
  refine ⟨_, ⟨_, next, hpasses, hupdate⟩, rfl, hsent, ?_⟩
  rw [List.foldl_append, ← hheld]
  rfl

end

/-! ### Fetching targets -/

section
variable {registry : Registry} {cluster : ClusterId} {hosts : List HostId} {site asked : Site ω HostConfigs}

theorem on_refreshHosts_of_unknown {f : Fault} (hunknown : registry.refreshTargets cluster hosts = .error f) :
    (h.refreshHosts registry cluster hosts).on site = (.error f, site) := by
  rw [refreshHosts, hunknown]
  rfl

/-- A refresh ends with the first target that cannot be fetched. -/
theorem on_refreshHosts_of_fails {before rest : List HostId} {host : HostId} {f : Fault}
    (htargets : registry.refreshTargets cluster hosts = .ok (before ++ host :: rest))
    (hfetch : Op.FailsAfter (fun host => h.source.fetch (Decimal.idText host)) before host site f asked) :
    (h.refreshHosts registry cluster hosts).on site = (.error f, asked) := by
  rw [refreshHosts_eq]
  refine Op.on_bind_of_error ?_
  rw [fetchTargets, htargets]
  exact hfetch.paired.on_mapM rest

/-- Once all targets are fetched, they are updated. -/
theorem on_refreshHosts_of_passes {targets : List HostId} {values : List HostConfigs}
    (htargets : registry.refreshTargets cluster hosts = .ok targets)
    (hfetch : Op.Passes (fun host => h.source.fetch (Decimal.idText host)) targets values site asked) :
    (h.refreshHosts registry cluster hosts).on site =
      (do let told ← (targets.zip values).mapM fun p => h.updateHost p.1 p.2
          return told.count true : Op (Site ω HostConfigs) Nat).on asked := by
  rw [refreshHosts_eq]
  refine Op.on_bind_of_ok ?_
  rw [fetchTargets, htargets]
  exact hfetch.paired.on_mapM

end

/-- A refresh fetches everything, and then writes and tells one host after another.

Its targets are the given hosts, else those of the cluster, else all that are registered. Without any, as the
cluster is unknown, it fails and asks no source. It ends with the first target that cannot be fetched, and
nothing has been written or sent then, unless the source itself has. When all are fetched, in their order, one
update of each is sent, as often as it is a target. If the transport takes them all, their number is the
answer, and the snapshots are laid over what was held when the last was fetched. If it refuses one, its fault
is the answer; the hosts up to and with that one are written, and those before it have been told. -/
theorem refresh_fetches_then_applies (h : Holder ω HostConfigs) {settings : ConfigsSettings}
    (hstrategy : h.strategy = .configs settings) (registry : Registry) (cluster : ClusterId)
    (hosts : List HostId) (site : Site ω HostConfigs) :
    let refresh := (h.refreshHosts registry cluster hosts).on site
    let fetch (host : HostId) := h.source.fetch (Decimal.idText host)
    (hosts = [] → registry.cluster? cluster = none → ∀ src,
      ({ h with source := src }.refreshHosts registry cluster hosts).on site =
        (.error (.scopeNotFound (Decimal.idText cluster)), site)) ∧
    (hosts ≠ [] ∨ registry.cluster? cluster ≠ none → ∃ targets, registry.Targets cluster hosts targets) ∧
    (∀ targets, registry.Targets cluster hosts targets →
      (∀ before host rest f asked, targets = before ++ host :: rest →
        Op.FailsAfter fetch before host site f asked →
        refresh = (.error f, asked) ∧
        (h.source.Preserves (fun now => now.held = site.held ∧ now.sent = site.sent) →
          asked.held = site.held ∧ asked.sent = site.sent)) ∧
      (∀ values asked, Op.Passes fetch targets values site asked →
        (h.source.Preserves (fun now => now.held = site.held ∧ now.sent = site.sent) →
          asked.held = site.held ∧ asked.sent = site.sent) ∧
        (∀ world, h.transport.Takes ((targets.zip values).map (hostUpdate settings)) asked.world world →
          ∃ after, refresh = (.ok targets.length, after) ∧
            after.sent = asked.sent ++ (targets.zip values).map (hostUpdate settings) ∧
            Held.Overlaid (targets.zip values) asked.held.scopes after.held.scopes) ∧
        (∀ told p rest f world, targets.zip values = told ++ p :: rest →
          h.transport.RefusesAfter (told.map (hostUpdate settings)) (hostUpdate settings p) asked.world f world →
          ∃ after, refresh = (.error f, after) ∧
            after.sent = asked.sent ++ told.map (hostUpdate settings) ∧
            Held.Overlaid (told ++ [p]) asked.held.scopes after.held.scopes))) := by
  intro refresh fetch
  refine ⟨?_, fun hknown => ?_, fun targets htargets => ?_⟩
  · intro hnone hunknown src
    exact on_refreshHosts_of_unknown (Registry.refreshTargets_eq_error_iff.2 ⟨hnone, hunknown, rfl⟩)
  · cases htargets : registry.refreshTargets cluster hosts with
    | ok targets => exact ⟨targets, Registry.refreshTargets_eq_ok_iff.1 htargets⟩
    | error f =>
      obtain ⟨hnone, hunknown, -⟩ := Registry.refreshTargets_eq_error_iff.1 htargets
      exact hknown.elim (absurd hnone) (absurd hunknown)
  · replace htargets := Registry.refreshTargets_eq_ok_iff.2 htargets
    refine ⟨?_, fun values asked hfetch => ⟨fun hsilent => ?_, fun world htakes => ?_, ?_⟩⟩
    · rintro before host rest f asked rfl hfetch
      refine ⟨on_refreshHosts_of_fails htargets hfetch, fun hsilent => ?_⟩
      exact hfetch.preserves (fun host => hsilent.fetch _) ⟨rfl, rfl⟩
    · exact hfetch.preserves (fun host => hsilent.fetch _) ⟨rfl, rfl⟩
    · obtain ⟨after, hpasses, -, hsent, hheld⟩ := passes_updates hstrategy htakes
      refine ⟨after, ?_, hsent, hheld ▸ Held.overlaid_writes _ _⟩
      refine (on_refreshHosts_of_passes htargets hfetch).trans ((Op.on_bind_of_ok hpasses.on_mapM).trans ?_)
      rw [List.count_replicate_self, List.length_zip, hfetch.length_eq, Nat.min_self, Op.on_pure]
    · intro told p rest f world hzip hrefuses
      obtain ⟨after, hfails, -, hsent, hheld⟩ := updates_fail hstrategy hrefuses
      refine ⟨after, ?_, hsent, hheld ▸ Held.overlaid_writes _ _⟩
      refine (on_refreshHosts_of_passes htargets hfetch).trans ?_
      rw [hzip]
      exact Op.on_bind_of_error (hfails.on_mapM rest)

/-- Two hosts of a cluster are refreshed in the order of its view, or, if only one envelope is taken, the first
of them is told and both are written. A host that cannot be fetched is found before any is written. -/
theorem refresh_fetches_then_applies_limited :
    let registry : Registry := ({} : Registry).upsertCluster
      { id := 1, name := "c", hosts := [{ id := 9, name := "i" }, { id := 7, name := "h" }] }
    let table : SourceTable HostConfigs :=
      { values := .ofList [("7", { timestamp := 1 }), ("9", { timestamp := 2 })] }
    let c (left : Option Nat) : Controller := { channel := { budget := left }, configs := { table } }
    let refresh (left : Option Nat) (hosts : List HostId) :=
      ((c left).configsHolder.refreshHosts registry 1 hosts).on ((c left).siteOf (c left).configs)
    (∃ after, refresh none [] = (.ok 2, after) ∧ after.sent.length = 2 ∧
      after.held.scopes.get? "9" = some { timestamp := 2 }) ∧
    (∃ after, refresh (some 1) [] = (.error (.transport "refused"), after) ∧ after.sent.length = 1 ∧
      after.held.scopes.get? "7" = some { timestamp := 1 }) ∧
    ∃ after, refresh none [7, 8] = (.error (.scopeUnavailable "8" "not in source"), after) ∧
      after.held = {} ∧ after.sent = [] := by
  intro registry table c refresh
  let start (left : Option Nat) := (c left).siteOf (c left).configs
  let refreshed (left : Option Nat) (hosts : List HostId) :=
    refresh_fetches_then_applies (c left).configsHolder rfl registry 1 hosts (start left)
  have hfetch : ∀ left host found, table.value (Decimal.idText host) = found →
      ((c left).configsHolder.source.fetch (Decimal.idText host)).on (start left) = (found, start left) := by
    rintro left host _ rfl
    exact Op.on_ofExcept ..
  have hcluster : registry.Targets 1 [] [9, 7] := Registry.refreshTargets_eq_ok_iff.1 (by decide +kernel)
  have hpasses : ∀ left, Op.Passes (fun host => (c left).configsHolder.source.fetch (Decimal.idText host))
      [9, 7] [{ timestamp := 2 }, { timestamp := 1 }] (start left) (start left) := by
    intro left
    exact .cons (hfetch left 9 (.ok { timestamp := 2 }) (by decide +kernel))
      (.cons (hfetch left 7 (.ok { timestamp := 1 }) (by decide +kernel)) .nil)
  refine ⟨?_, ?_, ?_⟩
  · obtain ⟨world, htakes⟩ := Surroundings.reliable_transport (w := (start none).world) rfl rfl _
    obtain ⟨after, hrefresh, hsent, hheld⟩ :=
      (((refreshed none []).2.2 _ hcluster).2 _ _ (hpasses none)).2.1 world htakes
    exact ⟨after, hrefresh, congrArg List.length hsent, hheld.refreshed [] 9 _ _ rfl (by decide)⟩
  · have hrefuses : (c (some 1)).configsHolder.transport.RefusesAfter
        [hostUpdate (c (some 1)).settings.configs (9, { timestamp := 2 })]
        (hostUpdate (c (some 1)).settings.configs (7, { timestamp := 1 })) (start (some 1)).world
        (.transport "refused") _ := ⟨_, .cons rfl .nil, rfl⟩
    obtain ⟨after, hrefresh, hsent, hheld⟩ :=
      (((refreshed (some 1) []).2.2 _ hcluster).2 _ _ (hpasses (some 1))).2.2 [_] _ [] _ _ rfl hrefuses
    exact ⟨after, hrefresh, congrArg List.length hsent, hheld.refreshed [_] 7 _ _ rfl (by decide)⟩
  · have hgiven : registry.Targets 1 [7, 8] ([7] ++ 8 :: []) := .given (List.cons_ne_nil _ _)
    have hfound := hfetch none 7 (.ok { timestamp := 1 }) (by decide +kernel)
    have hmissing := hfetch none 8 (.error (.scopeUnavailable "8" "not in source")) (by decide +kernel)
    obtain ⟨hrefresh, -⟩ := ((refreshed none [7, 8]).2.2 _ hgiven).1 [7] 8 [] _ (start none) rfl
      ⟨_, _, .cons hfound .nil, hmissing⟩
    exact ⟨_, hrefresh, rfl, rfl⟩

end Holder
end FleetSync
