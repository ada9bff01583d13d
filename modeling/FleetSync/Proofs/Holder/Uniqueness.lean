import FleetSync.Proofs.Holder.Calls
import FleetSync.Proofs.Holder.Outcome
import FleetSync.Proofs.Topology.Identities

/-!
Where repetition in held topologies comes from.

A topology gets into the held state as it is in two ways: as the payload of a creation or an update for a
scope that is not held, and as a snapshot from the source (`takenIn`). Neither way looks at identities.
Everything else that happens to a held topology brings no repetition about (`Topology.Unique.update`). So
the held topologies are without repetition throughout a run exactly if all those are that the run takes in
(`unique_throughout_iff`). One that repeats an identity is held like any other (`repetition_held`), though
deltas then reach only the first component of that identity.
-/
namespace FleetSync

/-- No held topology repeats a component identity or a host id. -/
def AllUnique (scopes : OrdMap ScopeKey Topology) : Prop :=
  ∀ scope t, scopes.get? scope = some t → t.Unique

theorem allUnique_iff_values {scopes : OrdMap ScopeKey Topology} :
    AllUnique scopes ↔ ∀ t ∈ scopes.values, t.Unique := by
  simp only [AllUnique, OrdMap.mem_values_iff]
  grind

namespace Held

/-- The payloads of an event that would be held as they are: those for scopes that are not held. -/
def takenIn (held : Held Topology) (e : Event Topology) : List Topology :=
  if e.type = .delete then []
  else (e.scopes.toList.filter fun p => (held.scopes.get? p.1).isNone).map (·.2)

theorem mem_takenIn_iff {held : Held Topology} {e : Event Topology} {t : Topology} :
    t ∈ held.takenIn e ↔
      e.type ≠ .delete ∧ ∃ scope, held.scopes.get? scope = none ∧ e.scopes.get? scope = some t := by
  rw [takenIn]
  split
  next htype => simp [htype]
  next htype => simp [htype, OrdMap.get?_eq_some_iff, and_comm]

/-- The topologies of a fresh build that would be held: all, unless their fingerprint is held already. -/
def takenOver (held : Held Topology) (scopes : OrdMap ScopeKey Topology) : List Topology :=
  if FleetSync.fingerprint scopes = held.fingerprint then [] else scopes.values

variable {held next : Held Topology} (hunique : AllUnique held.scopes)
include hunique

/-- Applying an event to topologies without repetition leaves such topologies exactly if those are that
it takes in. -/
theorem allUnique_apply_iff {settings : TopologySettings} {e : Event Topology} {changed : Bool}
    (happly : held.apply (.topology settings) e = .ok (next, changed)) :
    AllUnique next.scopes ↔ ∀ t ∈ held.takenIn e, t.Unique := by
  constructor
  · intro h t ht
    obtain ⟨htype, scope, hnone, hpayload⟩ := mem_takenIn_iff.1 ht
    have hout := ScopeOutcome.of_apply happly scope
    rw [hnone, hpayload] at hout
    generalize hafter : next.scopes.get? scope = after at hout
    cases hout
    exact h scope t hafter
  · intro h scope u hu
    have hout := ScopeOutcome.of_apply happly scope
    generalize hpayload : e.scopes.get? scope = payload at hout
    generalize hbefore : held.scopes.get? scope = before at hout
    rw [hu] at hout
    cases hout with
    | untouched => exact hunique scope u hbefore
    | inserted _ htype => exact h u (mem_takenIn_iff.2 ⟨htype, scope, hbefore, hpayload⟩)
    | updated d t _ => exact (hunique scope t hbefore).update d e.type

theorem allUnique_swap_iff (scopes : OrdMap ScopeKey Topology) :
    AllUnique (held.swap scopes).1.scopes ↔ ∀ t ∈ held.takenOver scopes, t.Unique := by
  by_cases hfp : FleetSync.fingerprint scopes = held.fingerprint
  · have hsame : (held.swap scopes).1 = held := congrArg Prod.fst (if_pos hfp)
    rw [hsame, takenOver, if_pos hfp]
    exact iff_of_true hunique (List.forall_mem_nil _)
  · have hnew : (held.swap scopes).1 = ofScopes scopes := congrArg Prod.fst (if_neg hfp)
    rw [hnew, takenOver, if_neg hfp]
    exact allUnique_iff_values

theorem allUnique_storeFetched_iff {scope : ScopeKey} (hnone : held.scopes.get? scope = none)
    (value : Topology) : AllUnique (held.storeFetched scope value).1.scopes ↔ value.Unique := by
  have hnew : (held.storeFetched scope value).1.scopes = held.scopes.insert scope value := by
    rw [storeFetched, hnone]
    rfl
  rw [hnew]
  constructor
  · intro h
    exact h scope value (by rw [OrdMap.get?_insert, if_pos rfl])
  · intro h x t ht
    rw [OrdMap.get?_insert] at ht
    split at ht
    next => exact Option.some.inj ht ▸ h
    next => exact hunique x t ht

end Held

namespace Holder
variable {ω : Type}

/-- The topologies that a call takes in as they are. -/
def Call.takenIn (h : Holder ω Topology) (site : Site ω Topology) : Call Topology → List Topology
  | load | resync =>
    match (h.currentData.on site).1 with
    | .ok current => site.held.takenOver current.scopes
    | .error _ => []
  | apply e | update e => site.held.takenIn e
  | scopeUpdateIfChanged scope _ =>
    match site.held.scopes.get? scope, ((h.source.fetch scope).on site).1 with
    | none, .ok value => [value]
    | _, _ => []

def Step.takenIn (h : Holder ω Topology) (site : Site ω Topology) : Step ω Topology → List Topology
  | call c => c.takenIn h site
  | outside _ => []

/-- The topologies that a run takes in as they are, step by step. -/
def takenIn (h : Holder ω Topology) : List (Step ω Topology) → Site ω Topology → List Topology
  | [], _ => []
  | step :: steps, site => step.takenIn h site ++ takenIn h steps (step.next h site)

section
variable {h : Holder ω Topology} {settings : TopologySettings} {site : Site ω Topology}
  (hstrategy : h.strategy = .topology settings)
include hstrategy

/-- A call leaves topologies without repetition exactly if those are that it takes in. -/
theorem Call.allUnique_leaves_iff (hunique : AllUnique site.held.scopes) (c : Call Topology) :
    AllUnique (c.leaves h site).scopes ↔ ∀ t ∈ c.takenIn h site, t.Unique := by
  cases c with
  | load | resync =>
    rw [leaves, takenIn]
    cases (h.currentData.on site).1 with
    | error f => exact iff_of_true hunique (List.forall_mem_nil _)
    | ok current => exact Held.allUnique_swap_iff hunique current.scopes
  | apply e | update e =>
    rw [leaves, takenIn, hstrategy]
    cases happly : site.held.apply (.topology settings) e with
    | ok r => exact Held.allUnique_apply_iff hunique happly
    | error f =>
      refine iff_of_true hunique fun t ht => ?_
      obtain ⟨r, hr⟩ := Held.exists_apply_topology settings (Held.mem_takenIn_iff.1 ht).1 site.held
      cases happly.symm.trans hr
  | scopeUpdateIfChanged scope prior =>
    rw [leaves, takenIn]
    cases hheld : site.held.scopes.get? scope with
    | some value => exact iff_of_true hunique (List.forall_mem_nil _)
    | none =>
      cases ((h.source.fetch scope).on site).1 with
      | error f => exact iff_of_true hunique (List.forall_mem_nil _)
      | ok value => simpa using Held.allUnique_storeFetched_iff hunique hheld value

variable (hsilent : h.source.Silent)
include hsilent

theorem Step.allUnique_next_iff (hunique : AllUnique site.held.scopes) (step : Step ω Topology) :
    AllUnique (step.next h site).held.scopes ↔ ∀ t ∈ step.takenIn h site, t.Unique := by
  cases step with
  | call c =>
    have hleaves : ((Step.call c).next h site).held = c.leaves h site := c.held_perform hsilent site
    rw [hleaves]
    exact c.allUnique_leaves_iff hstrategy hunique
  | outside change => exact iff_of_true hunique (List.forall_mem_nil _)

theorem allUnique_run_iff (hunique : AllUnique site.held.scopes) (steps : List (Step ω Topology)) :
    (∀ past, past <+: steps → AllUnique (h.run past site).held.scopes) ↔
      ∀ t ∈ h.takenIn steps site, t.Unique := by
  induction steps generalizing site with
  | nil =>
    refine iff_of_true (fun past hpast => ?_) (List.forall_mem_nil _)
    rw [List.prefix_nil.1 hpast]
    exact hunique
  | cons step steps ih =>
    have hstep := step.allUnique_next_iff hstrategy hsilent hunique
    rw [forall_prefix_cons_iff, takenIn, List.forall_mem_append, ← hstep]
    constructor
    · rintro ⟨-, hall⟩
      have hnext := hall [] List.nil_prefix
      exact ⟨hnext, (ih hnext).1 hall⟩
    · rintro ⟨hnext, hrest⟩
      exact ⟨hunique, (ih hnext).2 hrest⟩

end

/-- Throughout a run, no held topology repeats a component identity or a host id, exactly if none does that
the run takes in as it is.

The holder starts out empty, and its source leaves the held state alone, as a registry does whatever is in
it. The run is of any calls, with any payloads and whether or not they fail; dropping a cluster is one of
the updates. -/
theorem unique_throughout_iff (h : Holder ω Topology) {settings : TopologySettings}
    (hstrategy : h.strategy = .topology settings) (hsilent : h.source.Silent) (start : Site ω Topology)
    (hstart : start.held = {}) (steps : List (Step ω Topology)) :
    (∀ past, past <+: steps →
      ∀ scope t, (h.run past start).held.scopes.get? scope = some t → t.Unique) ↔
    ∀ t ∈ h.takenIn steps start, t.Unique := by
  refine allUnique_run_iff hstrategy hsilent ?_ steps
  rw [hstart]
  exact nofun

/-- A component that is listed twice. -/
def listedTwice : Topology :=
  { components := [{ name := "C", service := "S" }, { name := "C", service := "S" }] }

/-- A cluster with one host, to which it assigns a component as often as told. -/
def viewAssigning (times : Nat) : ClusterView where
  id := 1
  name := "c"
  hosts := [{ id := 7, name := "h" }]
  assignments := List.replicate times { service := "S", component := "C", hostNames := .ofList ["h"] }

/-- A cluster is built from its view, and another one is created. A delta that lists a component twice is
merged into the first. -/
def growing : List (Step (Surroundings Topology) Topology) := [
  .outside fun w => { w with registry := w.registry.upsertCluster (viewAssigning 1) },
  .call .resync,
  .call (.apply (.single "9" { hosts := [{ id := 7, name := "h" }] } .create)),
  .call (.update (.single "1" listedTwice .update))]

/-- Nothing is repeated at any point of it. -/
theorem unique_throughout_growing :
    let c : Controller := {}
    (∀ past, past <+: growing → ∀ scope t,
      (c.topologyHolder.run past (c.siteOf c.topology)).held.scopes.get? scope = some t → t.Unique) ∧
    (c.topologyHolder.takenIn growing (c.siteOf c.topology)).length = 2 := by
  intro c
  have hsilent : c.topologyHolder.source.Silent := Source.silent_ofRegistry _
  have htaken : c.topologyHolder.takenIn growing (c.siteOf c.topology) =
      [(viewAssigning 1).topology, { hosts := [{ id := 7, name := "h" }] }] := by decide +kernel
  refine ⟨(unique_throughout_iff c.topologyHolder rfl hsilent _ rfl growing).2 ?_, ?_⟩
  · rw [htaken]
    decide +kernel
  · rw [htaken]
    rfl

/-- A component that is listed twice is held twice, be it that a creation lists it or the view that a
cluster is built from. -/
theorem repetition_held :
    let c : Controller := {}
    let listing := { c with registry := c.registry.upsertCluster (viewAssigning 2) }
    (∃ t, (c.topologyHolder.run [.call (.apply (.single "1" listedTwice .create))]
        (c.siteOf c.topology)).held.scopes.get? "1" = some t ∧ ¬ t.Unique) ∧
    ∃ t, (listing.topologyHolder.run [.call .load] (listing.siteOf listing.topology)).held.scopes.get? "1" =
        some t ∧ ¬ t.Unique := by
  intro c listing
  refine ⟨⟨listedTwice, by decide +kernel, by decide⟩, (viewAssigning 2).topology, by decide +kernel, ?_⟩
  rw [ClusterView.unique_topology_iff]
  decide

end Holder
end FleetSync
