import FleetSync.Proofs.Holder.Redelivery

/-!
Events in another order.

The order of creations and updates decides which payload is held as it is, which one is merged into it, in which
order components stand, and which version or parameter counts. It does not decide what there is: whatever the
order, a scope holds the components and hosts of what it held and of all payloads for it, put together, and each
component all that any of them mentions of it (`Topology.Gathers`). One event adds its payload to what is
gathered already (`Gathered.next`), so by induction any events do (`Held.gathered_applyAll`), and what is gathered
from some topologies depends on them as a set.
-/
namespace FleetSync

/-! ### What components mention -/

/-- A host that a component refers to, or a parameter that it sets. -/
inductive Mention where
  | hostId (id : HostId)
  | hostName (name : String)
  | publicHostName (name : String)
  | levelParam (key : String)
  | commandParam (key : String)

namespace Component

def Mentions (c : Component) : Mention → Prop
  | .hostId id => id ∈ c.hostIds
  | .hostName name => name ∈ c.hostNames
  | .publicHostName name => name ∈ c.publicHostNames
  | .levelParam key => key ∈ c.levelParams.keys
  | .commandParam key => key ∈ c.commandParams.keys

/-- Two components with the same references and the same parameters, values aside. -/
structure MentionsAlike (c d : Component) : Prop where
  hostIds : c.hostIds = d.hostIds
  hostNames : c.hostNames = d.hostNames
  publicHostNames : c.publicHostNames = d.publicHostNames
  levelKeys : c.levelParams.keys = d.levelParams.keys
  commandKeys : c.commandParams.keys = d.commandParams.keys

theorem MentionsAlike.of_iff {c d : Component} (h : ∀ m, c.Mentions m ↔ d.Mentions m) : c.MentionsAlike d where
  hostIds := OrdSet.ext_mem fun id => h (.hostId id)
  hostNames := OrdSet.ext_mem fun name => h (.hostName name)
  publicHostNames := OrdSet.ext_mem fun name => h (.publicHostName name)
  levelKeys := OrdMap.keys_eq_of_mem_iff fun key => h (.levelParam key)
  commandKeys := OrdMap.keys_eq_of_mem_iff fun key => h (.commandParam key)

end Component

/-- A component with everything that some deltas give mentions what it mentioned and what they mention. -/
theorem Component.Accumulates.mentions_iff {base c : Component} {deltas : List Component}
    (h : base.Accumulates deltas c) (m : Mention) :
    c.Mentions m ↔ base.Mentions m ∨ ∃ d ∈ deltas, d.Mentions m := by
  cases m with
  | hostId id => exact h.hostIds id
  | hostName name => exact h.hostNames name
  | publicHostName name => exact h.publicHostNames name
  | levelParam key =>
    simp only [Mentions, OrdMap.mem_keys_iff, h.levelParams]
    exact isSome_lastGiven ..
  | commandParam key =>
    simp only [Mentions, OrdMap.mem_keys_iff, h.commandParams]
    exact isSome_lastGiven ..

namespace Topology

/-! ### What is gathered in a topology -/

/-- A topology of all that some topologies name, each component once. -/
structure Gathers (parts : List Topology) (t : Topology) : Prop where
  nodup : (t.components.map Component.identity).Nodup
  identities : ∀ k, k ∈ t.components.map Component.identity ↔
    ∃ part ∈ parts, k ∈ part.components.map Component.identity
  hostIds : ∀ id, id ∈ t.hosts.map Host.id ↔ ∃ part ∈ parts, id ∈ part.hosts.map Host.id
  /-- A component mentions what those of its identity mention. -/
  mentions : ∀ c ∈ t.components, ∀ m, c.Mentions m ↔
    ∃ part ∈ parts, ∃ d ∈ part.components, d.identity = c.identity ∧ d.Mentions m

theorem gathers_self {t : Topology} (h : (t.components.map Component.identity).Nodup) : Gathers [t] t where
  nodup := h
  identities k := by simp
  hostIds id := by simp
  mentions c hc m := by
    simp only [List.exists_mem_cons_iff, List.not_mem_nil, false_and, exists_false, or_false]
    constructor
    · intro hm
      exact ⟨c, hc, rfl, hm⟩
    · rintro ⟨d, hd, hid, hm⟩
      exact List.inj_on_of_nodup_map h hd hc hid ▸ hm

/-- What is gathered depends on the parts as a set. -/
theorem Gathers.of_perm {parts order : List Topology} {t : Topology} (h : Gathers parts t)
    (hperm : order.Perm parts) : Gathers order t where
  nodup := h.nodup
  identities k := by simp only [h.identities, hperm.mem_iff]
  hostIds id := by simp only [h.hostIds, hperm.mem_iff]
  mentions c hc m := by simp only [h.mentions c hc, hperm.mem_iff]

/-- A component of a merge mentions what those of its identity mention on either side. -/
theorem mentions_merge_iff {t delta : Topology} (ht : (t.components.map Component.identity).Nodup)
    {c : Component} (hc : c ∈ (t.merge delta).1.components) (m : Mention) :
    c.Mentions m ↔ ∃ d ∈ t.components ++ delta.components, d.identity = c.identity ∧ d.Mentions m := by
  obtain ⟨base, hbase, hacc⟩ := accumulates_of_mem_mergeComponents ht hc
  have hid : base.identity = c.identity := by simpa using List.find?_some hbase
  rw [hacc.mentions_iff]
  constructor
  · rintro (hm | ⟨d, hd, hm⟩)
    · exact ⟨base, List.mem_of_find?_eq_some hbase, hid, hm⟩
    · obtain ⟨hmem, hdc⟩ := List.mem_filter.1 hd
      exact ⟨d, List.mem_append_right _ hmem, by simpa using hdc, hm⟩
  · rintro ⟨d, hd, hdc, hm⟩
    rcases List.mem_append.1 hd with hd | hd
    · -- it is the first of its identity then
      have hfirst : t.components.find? (·.identity = c.identity) = some d :=
        hdc ▸ find?_key_of_mem ht hd
      rw [List.find?_append, hfirst, Option.some_or] at hbase
      exact .inl (Option.some.inj hbase ▸ hm)
    · exact .inr ⟨d, List.mem_filter.2 ⟨hd, by simpa using hdc⟩, hm⟩

/-- Merging a delta, repeating itself or not, adds it to what is gathered. -/
theorem Gathers.merge {parts : List Topology} {t : Topology} (h : Gathers parts t) (delta : Topology) :
    Gathers (parts ++ [delta]) (t.merge delta).1 := by
  have hidentities : (t.merge delta).1.components.map Component.identity = _ :=
    combines_mergeComponent.extends.map_key_runSteps delta.components t.components
  have hhostIds : (t.merge delta).1.hosts.map Host.id = _ :=
    combines_mergeHost.extends.map_key_runSteps delta.hosts t.hosts
  have hparts : ∀ p : Topology → Prop,
      (∃ part ∈ parts ++ [delta], p part) ↔ (∃ part ∈ parts, p part) ∨ p delta := by
    intro p
    simp [or_and_right, exists_or]
  refine ⟨combines_mergeComponent.extends.nodup delta.components h.nodup, fun k => ?_, fun id => ?_,
    fun c hc m => ?_⟩
  · rw [hidentities, hparts, ← h.identities, List.mem_append, List.mem_eraseDups, List.mem_filter]
    simp only [decide_eq_true_eq]
    tauto
  · rw [hhostIds, hparts, ← h.hostIds, List.mem_append, List.mem_eraseDups, List.mem_filter]
    simp only [decide_eq_true_eq]
    tauto
  · have hold : (∃ part ∈ parts, ∃ d ∈ part.components, d.identity = c.identity ∧ d.Mentions m) ↔
        ∃ d ∈ t.components, d.identity = c.identity ∧ d.Mentions m := by
      constructor
      · rintro ⟨part, hpart, d, hd, hid, hm⟩
        have hmem : c.identity ∈ t.components.map Component.identity :=
          (h.identities c.identity).2 ⟨part, hpart, hid ▸ List.mem_map_of_mem hd⟩
        obtain ⟨e, he, hec⟩ := List.mem_map.1 hmem
        exact ⟨e, he, hec, (h.mentions e he m).2 ⟨part, hpart, d, hd, hid.trans hec.symm, hm⟩⟩
      · rintro ⟨d, hd, hid, hm⟩
        rw [← hid]
        exact (h.mentions d hd m).1 hm
    rw [hparts, hold, mentions_merge_iff h.nodup hc]
    simp only [List.mem_append, or_and_right, exists_or]

/-- Two topologies with the same components and hosts, each of which mentions the same. -/
structure SameSets (t u : Topology) : Prop where
  identities : ∀ k, k ∈ t.components.map Component.identity ↔ k ∈ u.components.map Component.identity
  hostIds : ∀ id, id ∈ t.hosts.map Host.id ↔ id ∈ u.hosts.map Host.id
  components : ∀ c ∈ t.components, ∀ d ∈ u.components, c.identity = d.identity → c.MentionsAlike d

theorem Gathers.sameSets {parts : List Topology} {t u : Topology} (ht : Gathers parts t) (hu : Gathers parts u) :
    t.SameSets u where
  identities k := (ht.identities k).trans (hu.identities k).symm
  hostIds id := (ht.hostIds id).trans (hu.hostIds id).symm
  components c hc d hd hid := .of_iff fun m => by rw [ht.mentions c hc, hu.mentions d hd, hid]

end Topology

/-! ### What is gathered in a scope -/

/-- What is held for a scope is gathered from some topologies, and nothing is held if there are none. -/
def Gathered (parts : List Topology) : Option Topology → Prop
  | none => parts = []
  | some t => parts ≠ [] ∧ t.Gathers parts

theorem gathered_toList {held : Option Topology}
    (h : ∀ t, held = some t → (t.components.map Component.identity).Nodup) : Gathered held.toList held := by
  cases held with
  | none => rfl
  | some t => exact ⟨List.cons_ne_nil t [], Topology.gathers_self (h t rfl)⟩

namespace Gathered
variable {parts : List Topology} {before after : Option Topology}

theorem of_perm {order : List Topology} (h : Gathered parts before) (hperm : order.Perm parts) :
    Gathered order before := by
  cases before with
  | none => exact List.perm_nil.1 ((h : parts = []) ▸ hperm)
  | some t => exact ⟨fun hnil => h.1 (List.nil_perm.1 (hnil ▸ hperm)), h.2.of_perm hperm⟩

/-- An event adds its payload for a scope, if it has one, to what is gathered there. -/
theorem next {type : EventType} {payload : Option Topology} (h : Gathered parts before)
    (hout : ScopeOutcome type payload before after) (htype : type ≠ .delete)
    (hpayload : ∀ delta, payload = some delta → (delta.components.map Component.identity).Nodup) :
    Gathered (parts ++ payload.toList) after := by
  cases payload with
  | none => simpa [hout.eq_of_none] using h
  | some delta =>
    rw [hout.eq_combined htype]
    refine ⟨by simp, ?_⟩
    cases before with
    | none =>
      rw [show parts = [] from h]
      exact Topology.gathers_self (hpayload delta rfl)
    | some t => exact h.2.merge delta

theorem isSome_iff (h : Gathered parts before) : before.isSome = true ↔ parts ≠ [] := by
  cases before with
  | none => exact iff_of_false nofun (not_not.2 h)
  | some t => exact iff_of_true rfl h.1

end Gathered

/-! ### Events in turn -/

/-- Creations and updates none of whose payloads repeats a component. -/
def Gathering (events : List (Event Topology)) : Prop :=
  ∀ e ∈ events, e.type ≠ .delete ∧ ∀ scope delta, e.scopes.get? scope = some delta →
    (delta.components.map Component.identity).Nodup

/-- The payloads for a scope. -/
def payloadsFor (scope : ScopeKey) (events : List (Event Topology)) : List Topology :=
  events.filterMap (·.scopes.get? scope)

theorem payloadsFor_cons (scope : ScopeKey) (e : Event Topology) (events : List (Event Topology)) :
    payloadsFor scope (e :: events) = (e.scopes.get? scope).toList ++ payloadsFor scope events := by
  rw [payloadsFor, List.filterMap_cons]
  cases e.scopes.get? scope <;> rfl

/-- Events add their payloads for a scope to what is gathered there, and none of them fails. -/
theorem Held.gathered_applyAll (settings : TopologySettings) {events : List (Event Topology)}
    (hevents : Gathering events) {held : Held Topology} {parts : ScopeKey → List Topology}
    (hparts : ∀ scope, Gathered (parts scope) (held.scopes.get? scope)) :
    ∃ after, held.applyAll (.topology settings) events = .ok after ∧
      ∀ scope, Gathered (parts scope ++ payloadsFor scope events) (after.scopes.get? scope) := by
  induction events generalizing held parts with
  | nil => exact ⟨held, rfl, fun scope => (List.append_nil (parts scope)).symm ▸ hparts scope⟩
  | cons e events ih =>
    obtain ⟨⟨htype, hpayloads⟩, hevents⟩ := List.forall_mem_cons.1 hevents
    obtain ⟨⟨next, changed⟩, happly⟩ := exists_apply_topology settings htype held
    have hnext : ∀ scope, Gathered (parts scope ++ (e.scopes.get? scope).toList) (next.scopes.get? scope) :=
      fun scope => (hparts scope).next (ScopeOutcome.of_apply happly scope) htype (hpayloads scope)
    obtain ⟨after, hrun, hafter⟩ := ih hevents hnext
    refine ⟨after, ?_, fun scope => ?_⟩
    · rw [applyAll, List.foldlM_cons, happly]
      exact hrun
    · rw [payloadsFor_cons, ← List.append_assoc]
      exact hafter scope

namespace Holder
variable {ω : Type}

/-- Calls that apply events, announced or not, leave what the events make of what is held. -/
theorem held_of_deliveries {h : Holder ω Topology} {calls : List (Call Topology)}
    {events : List (Event Topology)} (hcalls : List.Forall₂ (fun c e => c = .apply e ∨ c = .update e) calls events)
    {site : Site ω Topology} {after : Held Topology} (happly : site.held.applyAll h.strategy events = .ok after) :
    (h.run (calls.map .call) site).held = after := by
  induction hcalls generalizing site with
  | nil =>
    cases happly
    rfl
  | @cons c e calls events hc _ ih =>
    obtain ⟨next, hfirst, hrest⟩ := bind_eq_ok_iff.1 happly
    obtain ⟨⟨held, changed⟩, hmerged, rfl⟩ := map_eq_ok_iff.1 hfirst
    have hheld : ((Step.call c).next h site).held = held := by
      rw [Step.next, held_of_delivery hc, Call.leaves, hmerged]
    refine ih ?_
    rw [hheld]
    exact hrest

/-- The order of creations and updates does not decide what there is.

Where neither what is held nor a payload repeats a component, events in any order are applied, be they announced
or not and be the announcements taken or not. What a scope holds then is, as far as sets go, what it held before
and all payloads for it, put together. So in any two orders the events come to the same scopes, in each of them
to the same components and hosts, and in each component to the same references and the same parameters. -/
theorem union_in_any_order (h : Holder ω Topology) {settings : TopologySettings}
    (hstrategy : h.strategy = .topology settings) (site : Site ω Topology)
    (hnodup : ∀ scope t, site.held.scopes.get? scope = some t → (t.components.map Component.identity).Nodup)
    (events : List (Event Topology)) (hevents : Gathering events) (order : List (Event Topology))
    (horder : order.Perm events) :
    ∃ after after', site.held.applyAll h.strategy events = .ok after ∧
      site.held.applyAll h.strategy order = .ok after' ∧
      (∀ calls, List.Forall₂ (fun c e => c = .apply e ∨ c = .update e) calls order →
        (h.run (calls.map .call) site).held = after') ∧
      after'.scopes.keys = after.scopes.keys ∧
      ∀ scope,
        Gathered ((site.held.scopes.get? scope).toList ++ payloadsFor scope events) (after.scopes.get? scope) ∧
        ∀ t t', after.scopes.get? scope = some t → after'.scopes.get? scope = some t' → t'.SameSets t := by
  rw [hstrategy]
  have hstart : ∀ scope, Gathered (site.held.scopes.get? scope).toList (site.held.scopes.get? scope) :=
    fun scope => gathered_toList (hnodup scope)
  have hevents' : Gathering order := fun e he => hevents e (horder.mem_iff.1 he)
  obtain ⟨after, hafter, hgathered⟩ := Held.gathered_applyAll settings hevents hstart
  obtain ⟨after', hafter', hgathered'⟩ := Held.gathered_applyAll settings hevents' hstart
  -- the same is gathered in both orders
  have hsame : ∀ scope, Gathered ((site.held.scopes.get? scope).toList ++ payloadsFor scope events)
      (after'.scopes.get? scope) := fun scope =>
    (hgathered' scope).of_perm ((horder.symm.filterMap _).append_left _)
  refine ⟨after, after', hafter, hafter', fun calls hcalls => ?_, ?_, fun scope => ⟨hgathered scope, ?_⟩⟩
  · exact held_of_deliveries hcalls (hstrategy ▸ hafter')
  · refine OrdMap.keys_eq_of_mem_iff fun scope => ?_
    rw [OrdMap.mem_keys_iff, OrdMap.mem_keys_iff, (hsame scope).isSome_iff, (hgathered scope).isSome_iff]
  · intro t t' ht ht'
    have hthere := hgathered scope
    have hthere' := hsame scope
    rw [ht] at hthere
    rw [ht'] at hthere'
    exact hthere'.2.sameSets hthere.2

/-- Two events for a cluster that is held, the second of which also brings up another one, and one for that. -/
def interleaved : List (Event Topology) := [
  .single "1" ofOnce .update,
  (Event.single "1" { components := [{ name := "A", service := "S", version := some "4", hostIds := .ofList [6] }]
                      hosts := [{ id := 1, name := "z" }] } .create).withScope "2" ofOnce,
  .single "2" { components := [{ name := "E", service := "S" },
    { name := "D", service := "S", hostNames := .ofList ["e"], commandParams := .ofList [("k", "v")] }] } .update]

/-- The other way round the events leave another state, with the same sets. -/
theorem union_in_any_order_interleaved :
    let c : Controller := {}
    let site := { c.siteOf c.topology with
      held := .ofScopes ((∅ : OrdMap ScopeKey Topology).insert "1" .ofTwo) }
    let calls : List (Call Topology) := interleaved.reverse.map .update
    let there := site.held.applyAll (.topology {}) interleaved
    let back := site.held.applyAll (.topology {}) interleaved.reverse
    back ≠ there ∧ ∃ after after', there = .ok after ∧ back = .ok after' ∧
      (c.topologyHolder.run (calls.map .call) site).held = after' ∧ after'.scopes.keys = after.scopes.keys ∧
      ∀ scope t t', after.scopes.get? scope = some t → after'.scopes.get? scope = some t' → t'.SameSets t := by
  intro c site calls there back
  have hheld : ∀ t ∈ site.held.scopes.values, (t.components.map Component.identity).Nodup := by decide +kernel
  have hpayloads : ∀ e ∈ interleaved, e.type ≠ .delete ∧
      ∀ delta ∈ e.scopes.values, (delta.components.map Component.identity).Nodup := by decide
  have hnodup : ∀ scope t, site.held.scopes.get? scope = some t →
      (t.components.map Component.identity).Nodup :=
    fun scope t ht => hheld t (OrdMap.mem_values_iff.2 ⟨scope, ht⟩)
  have hevents : Gathering interleaved := fun e he => ⟨(hpayloads e he).1,
    fun scope delta hdelta => (hpayloads e he).2 delta (OrdMap.mem_values_iff.2 ⟨scope, hdelta⟩)⟩
  have hcalls : List.Forall₂ (fun c e => c = .apply e ∨ c = .update e) calls interleaved.reverse :=
    List.forall₂_map_left_iff.2 (List.forall₂_same.2 fun _ _ => .inr rfl)
  obtain ⟨after, after', hthere, hback, hrun, hkeys, hsets⟩ := union_in_any_order c.topologyHolder rfl site
    hnodup interleaved hevents interleaved.reverse (List.reverse_perm _)
  exact ⟨by decide +kernel, after, after', hthere, hback, hrun calls hcalls, hkeys, fun scope => (hsets scope).2⟩

end Holder
end FleetSync
