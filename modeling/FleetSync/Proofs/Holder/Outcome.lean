import FleetSync.Holder.TopologyStrategy
import FleetSync.Proofs.Holder.Pointwise

/-!
What an event makes of the held topologies, scope by scope.

There are four ways in which a scope comes out of an event (`ScopeOutcome`), told apart by whether the
event has a payload for it, whether it was held, and, for a deletion, whether what was held is empty. The
payload itself is looked at in none of them. Only a deletion can fail, and only for a scope that is not
held.
-/
namespace FleetSync

/-- What is held for a scope before and after an event of some type that has a payload for it, or none. -/
inductive ScopeOutcome (type : EventType) :
    (payload before after : Option Topology) → Prop
  /-- The event has nothing for the scope. -/
  | untouched (before : Option Topology) : ScopeOutcome type none before before
  /-- Nothing was held, and the payload is from now on, as it is. -/
  | inserted (d : Topology) (htype : type ≠ .delete) : ScopeOutcome type (some d) none (some d)
  /-- A deletion found the topology empty. -/
  | dropped (d t : Topology) (htype : type = .delete) (hempty : t.isEmpty = true) :
    ScopeOutcome type (some d) (some t) none
  /-- The payload is merged or, by a deletion, taken away. -/
  | updated (d t : Topology) (h : ¬ (type = .delete ∧ t.isEmpty = true)) :
    ScopeOutcome type (some d) (some t) (some (t.update d type).1)

namespace ScopeOutcome
variable {settings : TopologySettings} {type : EventType} {scope : ScopeKey}

theorem of_merge {held : Option Topology} {d : Topology} {v : Verdict Topology}
    (h : Strategy.mergeTopology scope held d type = .ok v) :
    ScopeOutcome type (some d) held (v.resolve held) := by
  cases held with
  | none =>
    cases type with
    | delete => cases h
    | create | update =>
      cases h
      exact .inserted d nofun
  | some t =>
    cases type with
    | delete =>
      rw [Strategy.mergeTopology] at h
      split at h
      next hempty =>
        cases h
        exact .dropped d t rfl hempty
      next hne =>
        cases h
        exact .updated d t fun hd => hne hd.2
    | create | update =>
      cases h
      exact .updated d t nofun

/-- Every scope comes out of an event that was applied in one of these ways. -/
theorem of_apply {held next : Held Topology} {e : Event Topology} {changed : Bool}
    (h : held.apply (.topology settings) e = .ok (next, changed)) (scope : ScopeKey) :
    ScopeOutcome e.type (e.scopes.get? scope) (held.scopes.get? scope) (next.scopes.get? scope) := by
  have ha := Held.apply_cases (.topology settings) e held
  rw [h] at ha
  cases hd : e.scopes.get? scope with
  | none =>
    have hnot : scope ∉ e.scopes.toList.map (·.1) := by
      rintro hm
      obtain ⟨p, hp, rfl⟩ := List.mem_map.1 hm
      rw [(OrdMap.get?_eq_some_iff ..).2 hp] at hd
      cases hd
    rw [ha.merged.others scope hnot]
    exact .untouched _
  | some d =>
    obtain ⟨v, hv, hresult⟩ := ha.merged.named (scope, d) ((OrdMap.get?_eq_some_iff ..).1 hd)
    rw [hresult]
    exact of_merge hv

theorem eq_of_none {before after : Option Topology} (h : ScopeOutcome type none before after) :
    after = before := by
  cases h
  rfl

end ScopeOutcome

/-- Whatever is held, what is created or updated can be merged. -/
theorem Strategy.exists_mergeTopology {type : EventType} (htype : type ≠ .delete) (scope : ScopeKey)
    (held : Option Topology) (d : Topology) : ∃ v, mergeTopology scope held d type = .ok v := by
  cases type with
  | delete => exact absurd rfl htype
  | create | update => cases held <;> exact ⟨_, rfl⟩

/-- Creating and updating never fails. -/
theorem Held.exists_apply_topology (settings : TopologySettings) {e : Event Topology}
    (htype : e.type ≠ .delete) (held : Held Topology) :
    ∃ r, held.apply (.topology settings) e = .ok r := by
  have hc := apply_cases (.topology settings) e held
  cases happly : held.apply (.topology settings) e with
  | ok r => exact ⟨r, rfl⟩
  | error f =>
    rw [happly] at hc
    obtain ⟨⟨scope, d⟩, -, hfail⟩ := hc.exists_mem
    obtain ⟨v, hv⟩ := Strategy.exists_mergeTopology htype scope (held.scopes.get? scope) d
    exact nomatch hfail.symm.trans hv

/-- No verdict on a topology leaves it unchanged. -/
theorem Strategy.ne_unchanged_of_mergeTopology {scope : ScopeKey} {held : Option Topology} {d : Topology}
    {type : EventType} {v : Verdict Topology} (h : mergeTopology scope held d type = .ok v) :
    v ≠ .unchanged := by
  rintro rfl
  cases held with
  | none => cases type <;> cases h
  | some t =>
    cases type with
    | create | update => cases h
    | delete =>
      rw [mergeTopology] at h
      split at h <;> cases h

/-- Merging topologies counts as a change if there is anything to merge. -/
theorem Held.changed_topology {settings : TopologySettings} {e : Event Topology} {held next : Held Topology}
    {changed : Bool} (happly : held.apply (.topology settings) e = .ok (next, changed)) :
    changed = !e.scopes.isEmpty := by
  have ha := apply_cases (.topology settings) e held
  rw [happly] at ha
  rw [OrdMap.isEmpty, Bool.eq_iff_iff, ha.merged.changed_iff]
  cases hentries : e.scopes.toList with
  | nil => simp
  | cons p entries =>
    obtain ⟨v, hv, -⟩ := ha.merged.named p (by rw [hentries]; exact List.mem_cons_self)
    exact iff_of_true ⟨p, List.mem_cons_self, v, hv, Strategy.ne_unchanged_of_mergeTopology hv⟩ rfl

end FleetSync
