import FleetSync.Proofs.Holder.Discretion

/-!
A holder that is rebuilt from its registry is the image of it.

The topology of a view is the crossing of its assignments with its hosts (`ClusterView.crossed_iff`), and the
image of a registry has the topology of each registered cluster under the text of its id
(`Registry.get?_topologies_iff`). Texts of ids read back, so a registry has a snapshot for every scope that it
lists, and a fresh build is its image (`Holder.on_currentData_ofRegistry`). A build takes the place of what is
held if its fingerprint differs. Where scopes are held with their fingerprint, and short of a collision, this
is so exactly if the build differs (`Held.swap_of_coherent`), and in any case a second build of the same finds
nothing to do (`Held.swap_swap`). On an empty holder, merging the build as an event comes to the same
(`Held.apply_empty_topology`). A source that fails to list its scopes or to fetch one of them
(`Source.FailsToBuild`) is the end of the call.
-/
namespace FleetSync

/-! ### The image of a registry -/

/-- The component of an assignment: it has what was assigned, and the ids of those hosts that carry one of its
names. -/
structure Assignment.Crosses (hosts : List Host) (a : Assignment) (c : Component) : Prop where
  name : c.name = a.component
  service : c.service = a.service
  displayName : c.displayName = none
  version : c.version = a.version
  mem_hostIds : ∀ id, id ∈ c.hostIds ↔ ∃ host ∈ hosts, host.name ∈ a.hostNames ∧ host.id = id
  hostNames : c.hostNames = a.hostNames
  publicHostNames : c.publicHostNames = a.publicHostNames
  levelParams : c.levelParams = a.levelParams
  commandParams : c.commandParams = a.commandParams

theorem Assignment.crosses_iff {hosts : List Host} {a : Assignment} {c : Component} :
    a.Crosses hosts c ↔ c = a.toComponent hosts := by
  have hids : ∀ id, id ∈ (a.toComponent hosts).hostIds ↔
      ∃ host ∈ hosts, host.name ∈ a.hostNames ∧ host.id = id := by
    intro id
    simp [toComponent, and_assoc]
  constructor
  · intro h
    have hsame : c.hostIds = (a.toComponent hosts).hostIds :=
      OrdSet.ext_mem fun id => (h.mem_hostIds id).trans (hids id).symm
    obtain ⟨name, service, displayName, version, hostIds, hostNames, publicHostNames, levelParams,
      commandParams⟩ := c
    obtain ⟨rfl, rfl, rfl, rfl, -, rfl, rfl, rfl, rfl⟩ := h
    cases hsame
    rfl
  · rintro rfl
    exact ⟨rfl, rfl, rfl, rfl, hids, rfl, rfl, rfl, rfl⟩

/-- The topology of a view: a component for each assignment to at least one host name, in their order, and the
hosts of the view. -/
structure ClusterView.Crossed (v : ClusterView) (t : Topology) : Prop where
  components :
    List.Forall₂ (Assignment.Crosses v.hosts) (v.assignments.filter (·.hostNames ≠ ∅)) t.components
  hosts : t.hosts = v.hosts

theorem ClusterView.crossed_iff {v : ClusterView} {t : Topology} : v.Crossed t ↔ t = v.topology := by
  have hassigned : v.assignments.filter (·.hostNames ≠ ∅) = v.assignments.filter (!·.hostNames.isEmpty) := by
    refine List.filter_congr fun a _ => ?_
    rw [Bool.eq_iff_iff, decide_eq_true_iff, Bool.not_eq_true', Bool.eq_false_iff, ne_eq, ne_eq,
      OrdSet.isEmpty_iff]
  have hcomponents : List.Forall₂ (fun a c => a.toComponent v.hosts = c)
      (v.assignments.filter (·.hostNames ≠ ∅)) t.components ↔ v.topology.components = t.components := by
    rw [hassigned, ← List.forall₂_map_left_iff (R := Eq), List.forall₂_eq_eq_eq]
    rfl
  constructor
  · intro h
    have hsame : v.topology.components = t.components :=
      hcomponents.1 (h.components.imp fun a c hac => (Assignment.crosses_iff.1 hac).symm)
    obtain ⟨components, hosts⟩ := t
    cases hsame
    cases h.hosts
    rfl
  · rintro rfl
    exact ⟨(hcomponents.2 rfl).imp fun a c hac => Assignment.crosses_iff.2 hac.symm, rfl⟩

namespace Registry

/-- The topologies of all registered clusters, each under the text of the id of its cluster. -/
def topologies (r : Registry) : OrdMap ScopeKey Topology :=
  .ofList (r.clusters.toList.map fun e => (Decimal.idText e.1, e.2.topology))

theorem get?_topologies_iff {r : Registry} {scope : ScopeKey} {t : Topology} :
    r.topologies.get? scope = some t ↔
      ∃ id view, r.cluster? id = some view ∧ scope = Decimal.idText id ∧ t = view.topology := by
  have hkeys : ((r.clusters.toList.map fun e => (Decimal.idText e.1, e.2.topology)).map (·.1)).Nodup := by
    have htexts : (r.clusters.keys.map Decimal.idText).Nodup :=
      r.clusters.nodup_keys.map fun _ _ h => Decimal.idText_inj.1 h
    rw [OrdMap.keys, List.map_map] at htexts
    rw [List.map_map]
    exact htexts
  rw [topologies, OrdMap.get?_ofList_eq_some_iff hkeys, List.mem_map]
  constructor
  · rintro ⟨⟨id, view⟩, hview, heq⟩
    cases heq
    exact ⟨id, view, (OrdMap.get?_eq_some_iff ..).2 hview, rfl, rfl⟩
  · rintro ⟨id, view, hview, rfl, rfl⟩
    exact ⟨(id, view), (OrdMap.get?_eq_some_iff ..).1 hview, rfl⟩

/-- Every scope that is listed has a snapshot. -/
theorem topology_of_mem {r : Registry} {e : ClusterId × ClusterView} (he : e ∈ r.clusters.toList) :
    r.topology (Decimal.idText e.1) = .ok e.2.topology := by
  have hview : r.cluster? e.1 = some e.2 := (OrdMap.get?_eq_some_iff ..).2 he
  rw [topology, Decimal.int64?_idText]
  simp only [hview]

end Registry

/-! ### Taking a build over -/

namespace Held
variable {α : Type} [Wire α]

theorem swap_eq (held : Held α) (scopes : OrdMap ScopeKey α) :
    held.swap scopes =
      if FleetSync.fingerprint scopes = held.fingerprint then (held, false) else (ofScopes scopes, true) :=
  rfl

/-- A build that was taken over is not taken over again. -/
theorem swap_swap (held : Held α) (scopes : OrdMap ScopeKey α) :
    (held.swap scopes).1.swap scopes = ((held.swap scopes).1, false) := by
  rw [swap_eq held]
  split
  next hsame => exact if_pos hsame
  next => exact if_pos rfl

/-- Whatever is built takes the place of what is held, and counts as a move exactly if it is something else,
unless the digest has a collision between the two. -/
theorem swap_of_coherent [Wire.Lawful α] {held : Held α} (hc : held.Coherent) {scopes : OrdMap ScopeKey α}
    (hfree : Digest.Sha256.CollisionFree {Wire.toText held.scopes, Wire.toText scopes}) :
    (held.swap scopes).1.scopes = scopes ∧ ((held.swap scopes).2 = true ↔ scopes ≠ held.scopes) := by
  have hsame : FleetSync.fingerprint scopes = held.fingerprint ↔ scopes = held.scopes := by
    rw [hc]
    exact fingerprint_inj hfree (fun _ => .inr rfl) fun _ => .inl rfl
  rw [swap_eq]
  split
  next h => exact ⟨(hsame.1 h).symm, iff_of_false Bool.false_ne_true fun hne => hne (hsame.1 h)⟩
  next h => exact ⟨rfl, iff_of_true rfl fun heq => h (hsame.2 heq)⟩

theorem Coherent.eq_empty {held : Held α} (hc : held.Coherent) (hnone : held.scopes = ∅) : held = {} := by
  obtain ⟨scopes, fingerprint⟩ := held
  obtain rfl : scopes = ∅ := hnone
  rw [Coherent, fingerprint_empty] at hc
  exact congrArg (Held.mk ∅) hc

/-- Over nothing, any build is held with its fingerprint. -/
theorem swap_empty (scopes : OrdMap ScopeKey α) : (({} : Held α).swap scopes).1 = ofScopes scopes := by
  rw [swap_eq]
  split
  next h =>
    obtain rfl := fingerprint_eq_empty_iff.1 h
    rfl
  next => rfl

/-- So is any event that creates, merged over nothing. -/
theorem apply_empty_topology (settings : TopologySettings) {e : Event Topology} (htype : e.type = .create) :
    ∃ changed, Held.apply (.topology settings) e {} = .ok (ofScopes e.scopes, changed) := by
  obtain ⟨⟨next, changed⟩, happly⟩ :=
    exists_apply_topology settings (by rw [htype]; exact nofun) ({} : Held Topology)
  have hscopes : next.scopes = e.scopes := by
    refine OrdMap.ext_get? fun scope => ?_
    have hnone : ({} : Held Topology).scopes.get? scope = none := rfl
    have hout := ScopeOutcome.of_apply happly scope
    rw [hnone] at hout
    generalize e.scopes.get? scope = payload at hout
    generalize next.scopes.get? scope = after at hout
    cases hout <;> rfl
  have hnext : next = ofScopes next.scopes := by
    have hheld := eq_of_apply happly
    cases changed with
    | true => exact hheld
    | false =>
      obtain rfl : next = {} := hheld
      rfl
  rw [hscopes] at hnext
  exact ⟨changed, hnext ▸ happly⟩

end Held

/-! ### Building -/

/-- Asking for everything fails with the list of scopes, or with the first scope that cannot be fetched. -/
inductive Source.FailsToBuild {ω α : Type} (src : Source ω α) (site : Site ω α) (f : Fault)
    (asked : Site ω α) : Prop
  | listing (hlist : src.scopes.on site = (.error f, asked))
  | fetching {before rest : List ScopeKey} {scope : ScopeKey} {listed : Site ω α}
      (hlist : src.scopes.on site = (.ok (before ++ scope :: rest), listed))
      (hfetch : Op.FailsAfter src.fetch before scope listed f asked)

namespace Holder

section
variable {ω α : Type} [Wire α] {h : Holder ω α} {site asked : Site ω α}

theorem on_currentData_of_passes {scopes : List ScopeKey} {values : List α} {listed : Site ω α}
    (hlist : h.source.scopes.on site = (.ok scopes, listed))
    (hfetch : Op.Passes h.source.fetch scopes values listed asked) :
    h.currentData.on site = (.ok {
      scopes := .ofList (scopes.zip values)
      type := .create
      fingerprint := some (fingerprint (.ofList (scopes.zip values))) }, asked) := by
  rw [currentData, Op.on_bind_of_ok hlist, Op.on_bind_of_ok hfetch.paired.on_mapM]
  rfl

/-- A build fails exactly where the source does. -/
theorem on_currentData_error_iff {f : Fault} :
    h.currentData.on site = (.error f, asked) ↔ h.source.FailsToBuild site f asked := by
  constructor
  · intro hfail
    rcases hlist : h.source.scopes.on site with ⟨g | scopes, listed⟩
    · rw [currentData, Op.on_bind_of_error hlist] at hfail
      cases hfail
      exact .listing hlist
    · rcases Op.passes_or_fails h.source.fetch scopes listed with
        ⟨values, t, hfetch⟩ | ⟨before, scope, rest, g, t, rfl, hfetch⟩
      · cases (on_currentData_of_passes hlist hfetch).symm.trans hfail
      · rw [currentData, Op.on_bind_of_ok hlist,
          Op.on_bind_of_error (hfetch.paired.on_mapM rest)] at hfail
        cases hfail
        exact .fetching hlist hfetch
  · rintro (hlist | ⟨hlist, hfetch⟩)
    · exact Op.on_bind_of_error hlist
    · rw [currentData, Op.on_bind_of_ok hlist]
      exact Op.on_bind_of_error (hfetch.paired.on_mapM _)

end

section
variable {ω : Type} {h : Holder ω Topology} {registry : ω → Registry}

/-- A fresh build from a registry is its image, and asking leaves the site alone. -/
theorem on_currentData_ofRegistry (hsource : h.source = .ofRegistry registry) (site : Site ω Topology) :
    h.currentData.on site = (.ok {
      scopes := (registry site.world).topologies
      type := .create
      fingerprint := some (fingerprint (registry site.world).topologies) }, site) := by
  let r := registry site.world
  let entries := r.clusters.toList
  have hlist : h.source.scopes.on site = (.ok (entries.map fun e => Decimal.idText e.1), site) := by
    have hscopes : r.scopes = entries.map fun e => Decimal.idText e.1 := List.map_map
    rw [hsource, ← hscopes]
    rfl
  have hfetch : Op.Passes h.source.fetch (entries.map fun e => Decimal.idText e.1)
      (entries.map fun e => e.2.topology) site site := by
    refine Op.passes_of_forall₂ ?_
    rw [List.forall₂_map_left_iff, List.forall₂_map_right_iff, List.forall₂_same]
    intro e he
    rw [hsource]
    show (Op.ofExcept (r.topology (Decimal.idText e.1))).on site = _
    rw [Op.on_ofExcept, Registry.topology_of_mem he]
  rw [on_currentData_of_passes hlist hfetch, List.zip_map']
  rfl

/-- Every move keeps what stores keep. -/
theorem Move.next_preserves {P : Held Topology → Prop} (hkept : Held.Kept h.strategy P)
    (hsource : h.source.Orderly h.strategy) (move : Move ω) {site : Site ω Topology} (hp : P site.held) :
    P (move.next h site).held := by
  have hasked := hsource.preserves hkept
  cases move with
  | call c => exact c.perform_preserves hkept hsource site hp
  | currentData => exact currentData_preserves hasked site hp
  | fullSnapshot scope => exact hasked.fetch scope site hp
  | poll prior =>
    rw [next, on_agentUpdateIfChanged]
    exact hp
  | outside change => exact hp

theorem course_coherent (hsource : h.source.Orderly h.strategy) {start : Site ω Topology}
    (hstart : start.held.Coherent) (moves : List (Move ω)) : (h.course moves start).held.Coherent := by
  induction moves generalizing start with
  | nil => exact hstart
  | cons move moves ih =>
    exact ih (move.next_preserves (Held.kept_coherent h.strategy) hsource hstart)

/-- A resync that takes a build over broadcasts it, and one that does not sends nothing. -/
theorem on_resync_ofRegistry {settings : TopologySettings} (hstrategy : h.strategy = .topology settings)
    (hsource : h.source = .ofRegistry registry) {site : Site ω Topology}
    (htransport : h.transport.Reliable site.world) :
    let image := (registry site.world).topologies
    let broadcast := announcement settings {
      scopes := image.map Topology.agentCopy
      type := .create
      fingerprint := some (fingerprint image) }
    ∃ synced, h.resync.on site = (.ok (site.held.swap image).2, synced) ∧
      synced.held = (site.held.swap image).1 ∧
      synced.sent = site.sent ++ if (site.held.swap image).2 then [broadcast] else [] := by
  intro image broadcast
  rw [on_resync_of_build (on_currentData_ofRegistry hsource site)]
  show ∃ synced, (do if (site.held.swap image).2 then _
                     return (site.held.swap image).2 : Op (Site ω Topology) Bool).on _ = _ ∧ _
  rw [Held.swap_eq]
  split
  next => exact ⟨site, rfl, rfl, (List.append_nil _).symm⟩
  next =>
    obtain ⟨world, -, hannounce⟩ := on_announceHeld_topology hstrategy
      { scopes := image, type := .create, fingerprint := some (fingerprint image) }
      { site with held := Held.ofScopes image } htransport
    exact ⟨_, Op.on_bind_of_ok hannounce, rfl, rfl⟩

/-- The image of a registry once held, loading and resyncing find nothing to do. -/
theorem on_rebuild_of_swapped (hsource : h.source = .ofRegistry registry) {site : Site ω Topology}
    {held : Held Topology} (hheld : site.held = (held.swap (registry site.world).topologies).1) :
    h.load.on site = (.ok false, site) ∧ h.resync.on site = (.ok false, site) := by
  have hswap : site.held.swap (registry site.world).topologies = (site.held, false) := by
    rw [hheld, Held.swap_swap]
  have hdata := on_currentData_ofRegistry hsource site
  rw [on_load_of_build hdata, on_resync_of_build hdata, hswap]
  exact ⟨rfl, rfl⟩

/-- On an empty holder the build may as well be merged as an event. -/
theorem exists_apply_build {settings : TopologySettings} (hstrategy : h.strategy = .topology settings)
    (hsource : h.source = .ofRegistry registry) {site : Site ω Topology} (hempty : site.held = {}) :
    ∃ changed applied,
      (do let current ← h.currentData
          h.apply current : Op (Site ω Topology) Bool).on site = (.ok changed, applied) ∧
      applied.held = (site.held.swap (registry site.world).topologies).1 ∧ applied.sent = site.sent := by
  have hdata := on_currentData_ofRegistry hsource site
  obtain ⟨changed, happly⟩ := Held.apply_empty_topology settings
    (e := { scopes := (registry site.world).topologies, type := .create,
            fingerprint := some (fingerprint (registry site.world).topologies) }) rfl
  refine ⟨changed, { site with
    held := .ofScopes (registry site.world).topologies
    tally := site.tally.count changed }, (Op.on_bind_of_ok hdata).trans ?_, ?_, rfl⟩
  · rw [on_apply, hstrategy, hempty, happly]
  · rw [hempty, Held.swap_empty]

/-- Loading and resyncing make a holder of topologies the image of its registry.

The image has the topology of each registered cluster under the text of its id, and nothing else. After
whatever has happened to a holder that started out empty, both calls come to the same: as long as the transport
takes everything they report a move exactly if the image is not what is held, and leave it held, unless the
digest has a collision between the two. A load tells nobody, and a resync that reports a move sends the agents'
copy of the image with its fingerprint. Both find nothing to do from then on, until something else is held
or the registry has changed. While nothing is held, merging the build as an event leaves the same as a load.
For any holder, a build fails exactly if its source fails to list the scopes or to fetch one of them; both calls
end there, and nothing has been stored or sent unless the source itself has. -/
theorem mirrors_registry (h : Holder ω Topology) {settings : TopologySettings}
    (hstrategy : h.strategy = .topology settings) (hsource : h.source = .ofRegistry registry)
    {start : Site ω Topology} (hstart : start.held = {}) (moves : List (Move ω)) :
    let site := h.course moves start
    let image := (registry site.world).topologies
    let broadcast := announcement settings {
      scopes := image.map Topology.agentCopy
      type := .create
      fingerprint := some (fingerprint image) }
    (∀ scope t, image.get? scope = some t ↔ ∃ id view,
      (registry site.world).cluster? id = some view ∧ scope = Decimal.idText id ∧ view.Crossed t) ∧
    (h.transport.Reliable site.world → ∃ moved loaded synced,
      h.load.on site = (.ok moved, loaded) ∧ h.resync.on site = (.ok moved, synced) ∧
      synced.held = loaded.held ∧ loaded = { site with held := loaded.held } ∧
      synced.sent = site.sent ++ (if moved then [broadcast] else []) ∧
      (Digest.Sha256.CollisionFree {Wire.toText site.held.scopes, Wire.toText image} →
        loaded.held.scopes = image ∧ (moved = true ↔ image ≠ site.held.scopes)) ∧
      (∀ later : Site ω Topology, later.held = loaded.held → registry later.world = registry site.world →
        h.load.on later = (.ok false, later) ∧ h.resync.on later = (.ok false, later)) ∧
      (site.held.scopes = ∅ → ∃ changed applied,
        (do let current ← h.currentData
            h.apply current : Op (Site ω Topology) Bool).on site = (.ok changed, applied) ∧
        applied.held = loaded.held ∧ applied.sent = loaded.sent)) ∧
    (∀ {ω' α : Type} [Wire α] (k : Holder ω' α) (site asked : Site ω' α) (f : Fault),
      (k.currentData.on site = (.error f, asked) ↔ k.source.FailsToBuild site f asked) ∧
      (k.source.FailsToBuild site f asked →
        k.load.on site = (.error f, asked) ∧ k.resync.on site = (.error f, asked) ∧
        (k.source.Preserves (fun now => now.held = site.held ∧ now.sent = site.sent) →
          asked.held = site.held ∧ asked.sent = site.sent))) := by
  intro site image broadcast
  have hcoherent : site.held.Coherent := by
    refine course_coherent ?_ ?_ moves
    · rw [hsource]
      exact (Source.silent_ofRegistry registry).orderly _
    · rw [hstart]
      rfl
  refine ⟨fun scope t => ?_, fun htransport => ?_, fun k site asked f => ?_⟩
  · rw [Registry.get?_topologies_iff]
    simp only [ClusterView.crossed_iff]
  · obtain ⟨synced, hresync, hheld, hsent⟩ := on_resync_ofRegistry hstrategy hsource htransport
    have hload := on_load_of_build (on_currentData_ofRegistry hsource site)
    refine ⟨_, _, synced, hload, hresync, hheld, rfl, hsent, Held.swap_of_coherent hcoherent, ?_, ?_⟩
    · intro later hlater hsame
      have hswapped : later.held = (site.held.swap (registry later.world).topologies).1 := by
        rw [hlater, hsame]
      exact on_rebuild_of_swapped hsource hswapped
    · intro hnone
      exact exists_apply_build hstrategy hsource (hcoherent.eq_empty hnone)
  · refine ⟨on_currentData_error_iff, fun hfails => ?_⟩
    have hdata := on_currentData_error_iff.2 hfails
    refine ⟨Op.on_bind_of_error hdata, Op.on_bind_of_error hdata, fun hquiet => ?_⟩
    have hkeeps := currentData_preserves hquiet site ⟨rfl, rfl⟩
    rwa [hdata] at hkeeps

end

/-- A cluster is created that is not registered, and another one is registered. -/
def registering : List (Move (Surroundings Topology)) := [
  .call (.update (.single "2" {} .create)),
  .outside fun w => { w with registry := w.registry.upsertCluster {
    id := 1
    name := "c"
    hosts := [{ id := 7, name := "h" }]
    assignments := [
      { service := "S", component := "C", hostNames := .ofList ["h", "i"] },
      { service := "S", component := "D" }] } }]

/-- The controller's holder then takes the registered cluster for the other one and says so once. A table that
lists a scope without a value leaves things as they are. -/
theorem mirrors_registry_registering :
    let c : Controller := {}
    let h := c.topologyHolder
    let site := h.course registering (c.siteOf c.topology)
    let cluster : Topology := {
      components := [{ name := "C", service := "S", hostIds := .ofList [7], hostNames := .ofList ["h", "i"] }]
      hosts := [{ id := 7, name := "h" }] }
    let d : Controller := { topologyFromTable := true, topology := { table := { listed := some ["1"] } } }
    let fault : Fault := .scopeUnavailable "1" "not in source"
    (∃ loaded synced, h.load.on site = (.ok true, loaded) ∧ h.resync.on site = (.ok true, synced) ∧
      loaded.held.scopes.toList = [("1", cluster)] ∧ synced.sent.length = 2 ∧
      h.resync.on loaded = (.ok false, loaded)) ∧
    ∃ asked, d.topologyHolder.resync.on (d.siteOf d.topology) = (.error fault, asked) ∧ asked.sent = [] := by
  intro c h site cluster d fault
  obtain ⟨-, hbuilds, hfails⟩ := mirrors_registry h (rfl : h.strategy = .topology c.settings.topology)
    (rfl : h.source = .ofRegistry (·.registry)) (rfl : (c.siteOf c.topology).held = {}) registering
  constructor
  · have hreliable : h.transport.Reliable site.world :=
      Surroundings.reliable_transport (by decide +kernel) (by decide +kernel)
    obtain ⟨moved, loaded, synced, hload, hresync, -, hloaded, hsent, himage, hagain, -⟩ := hbuilds hreliable
    have hdigests : Digest.Sha256.digest (Wire.toText site.held.scopes).toUTF8.toList ≠
        Digest.Sha256.digest (Wire.toText site.world.registry.topologies).toUTF8.toList := by
      decide +kernel
    obtain ⟨hheld, hmoved⟩ := himage (Set.injOn_pair.2 fun hsame => absurd hsame hdigests)
    have hother : site.world.registry.topologies ≠ site.held.scopes := by decide +kernel
    obtain rfl := hmoved.2 hother
    refine ⟨loaded, synced, hload, hresync, ?_, ?_, ?_⟩
    · rw [hheld]
      decide +kernel
    · rw [hsent, List.length_append]
      decide +kernel
    · refine (hagain loaded rfl ?_).2
      rw [hloaded]
  · have hlist : d.topologyHolder.source.scopes.on (d.siteOf d.topology) =
        (.ok ([] ++ "1" :: []), d.siteOf d.topology) := rfl
    have hfetch : d.topologyHolder.source.FailsToBuild (d.siteOf d.topology) fault (d.siteOf d.topology) :=
      .fetching hlist ⟨[], _, .nil, rfl⟩
    exact ⟨_, ((hfails _ _ _ _).2 hfetch).2.1, rfl⟩

end Holder

end FleetSync
