import FleetSync.Proofs.Holder.Announcing

/-!
The calls on a holder of configurations.

Hosts are told by an update, be it of any event, of one host, or of each host of a refresh. A refresh fetches
everything first (`Holder.fetchTargets`) and then makes one update after another (`Holder.refreshHosts_eq`),
so what fetches and updates keep, these calls keep (`Holder.Push.perform_preserves`). The other calls take
something in or answer, and tell nobody.
-/
namespace FleetSync.Holder
variable {ω : Type}

/-- The calls by which hosts are told. -/
inductive Push where
  | update (e : Event HostConfigs)
  | updateHost (host : HostId) (configs : HostConfigs)
  | removeHost (host : HostId)
  | refreshHosts (registry : Registry) (cluster : ClusterId) (hosts : List HostId)

/-- The calls on a holder of configurations. -/
inductive HostCall where
  | push (p : Push)
  | apply (e : Event HostConfigs)
  | load
  | currentData
  | poll (host : HostId) (prior : Fingerprint)

/-- What happens to a holder of configurations: it is called, or something happens outside of it. -/
inductive HostStep (ω : Type) where
  | call (c : HostCall)
  | outside (change : ω → ω)

/-- Makes a call, whatever it answers. -/
def Push.perform (h : Holder ω HostConfigs) : Push → Op (Site ω HostConfigs) Unit
  | update e => do let _ ← h.update e
  | updateHost host configs => do let _ ← h.updateHost host configs
  | removeHost host => do let _ ← h.removeHost host
  | refreshHosts registry cluster hosts => do let _ ← h.refreshHosts registry cluster hosts

def HostCall.perform (h : Holder ω HostConfigs) : HostCall → Op (Site ω HostConfigs) Unit
  | push p => p.perform h
  | apply e => do let _ ← h.apply e
  | load => do let _ ← h.load
  | currentData => do let _ ← h.currentData
  | poll host prior => do let _ ← h.hostUpdateIfChanged host prior

/-- The site after a step. A call that fails leaves what it has done by then. -/
def HostStep.next (h : Holder ω HostConfigs) (site : Site ω HostConfigs) :
    HostStep ω → Site ω HostConfigs
  | call c => ((c.perform h).on site).2
  | outside change => { site with world := change site.world }

/-- The site after a run of such steps. -/
def runHosts (h : Holder ω HostConfigs) (steps : List (HostStep ω)) (site : Site ω HostConfigs) :
    Site ω HostConfigs :=
  steps.foldl (HostStep.next h) site

/-- The snapshots of the hosts to refresh, all of them fetched before anything is applied. -/
def fetchTargets (h : Holder ω HostConfigs) (registry : Registry) (cluster : ClusterId)
    (hosts : List HostId) : Op (Site ω HostConfigs) (List (HostId × HostConfigs)) := do
  let targets ← Op.ofExcept (registry.refreshTargets cluster hosts)
  targets.mapM fun host => do
    let configs ← h.source.fetch (Decimal.idText host)
    return (host, configs)

/-- A refresh fetches, and then updates one host after another. -/
theorem refreshHosts_eq (h : Holder ω HostConfigs) (registry : Registry) (cluster : ClusterId)
    (hosts : List HostId) :
    h.refreshHosts registry cluster hosts = (do
      let fetched ← h.fetchTargets registry cluster hosts
      let told ← fetched.mapM fun p => h.updateHost p.1 p.2
      return told.count true) := by
  rw [fetchTargets, bind_assoc]
  rfl

/-- A host whose snapshot is held is answered from it, and nothing else happens. -/
theorem on_hostUpdateIfChanged (h : Holder ω HostConfigs) {host : HostId} {value : HostConfigs}
    {site : Site ω HostConfigs} (hheld : site.held.scopes.get? (Decimal.idText host) = some value)
    (prior : Fingerprint) :
    (h.hostUpdateIfChanged host prior).on site =
      (.ok (Held.scopeAnswer (Decimal.idText host) value prior), site) :=
  on_scopeUpdateIfChanged_of_held hheld prior

section
variable {P : Site ω HostConfigs → Prop} {h : Holder ω HostConfigs}
  (hfetch : ∀ scope, (h.source.fetch scope).Preserves P)
include hfetch

theorem fetchTargets_preserves (registry : Registry) (cluster : ClusterId) (hosts : List HostId) :
    (h.fetchTargets registry cluster hosts).Preserves P := by
  refine (Op.preserves_ofExcept _).bind fun targets => ?_
  refine Op.Preserves.mapM (fun host => ?_) targets
  exact (hfetch _).bind fun configs => Op.preserves_pure (host, configs)

theorem refreshHosts_preserves (hupdate : ∀ host configs, (h.updateHost host configs).Preserves P)
    (registry : Registry) (cluster : ClusterId) (hosts : List HostId) :
    (h.refreshHosts registry cluster hosts).Preserves P := by
  rw [refreshHosts_eq]
  refine (fetchTargets_preserves hfetch registry cluster hosts).bind fun fetched => ?_
  have heach : ∀ p : HostId × HostConfigs, (h.updateHost p.1 p.2).Preserves P := fun p => hupdate p.1 p.2
  exact (Op.Preserves.mapM heach fetched).bind fun told => Op.preserves_pure (told.count true)

/-- What fetches and updates keep, every call keeps that tells hosts. -/
theorem Push.perform_preserves (hupdate : ∀ e, (h.update e).Preserves P) (p : Push) :
    (p.perform h).Preserves P := by
  cases p with
  | update e => exact (hupdate e).bind fun _ => Op.preserves_pure ()
  | updateHost host configs =>
    exact (hupdate (.single (Decimal.idText host) configs .update)).bind fun _ => Op.preserves_pure ()
  | removeHost host =>
    exact (hupdate (.single (Decimal.idText host) h.strategy.emptyValue .delete)).bind
      fun _ => Op.preserves_pure ()
  | refreshHosts registry cluster hosts =>
    have hrefresh := refreshHosts_preserves hfetch
      (fun host configs => hupdate (.single (Decimal.idText host) configs .update)) registry cluster hosts
    exact hrefresh.bind fun _ => Op.preserves_pure ()

end
end FleetSync.Holder
