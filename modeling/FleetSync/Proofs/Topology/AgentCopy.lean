import FleetSync.Holder.TopologyStrategy
import FleetSync.Proofs.Topology.Identities
import Mathlib.Data.Bool.Basic

/-!
Deltas without host names, applied to topologies without host names.

Merging goes on attribute by attribute, so it makes no difference whether host names are cleared before or
after it (`agentCopy_merge`). Deleting is different. A delta component without references asks for the
component itself to be taken away, and one that is cleared of its only references, host names, looks just
like that; a held component that is cleared of them looks as if it may be taken away. So host names may
decide what a deletion does (`Component.NamesDecide`). Where they never do, the two agree. Where they do, the
agents' copy loses a component that is still held (`exists_lost`), unless the same component is named once
more and goes then: for deltas that name no component twice the two agree in no other case
(`agentCopy_deletion`).
-/
namespace FleetSync

namespace Component

@[simp] theorem identity_withoutHostNames (c : Component) : c.withoutHostNames.identity = c.identity := rfl

theorem withoutHostNames_merge (c delta : Component) :
    (c.merge delta).withoutHostNames = c.withoutHostNames.merge delta.withoutHostNames := by
  by_cases h : c.SameIdentity delta
  · have h' : c.withoutHostNames.SameIdentity delta.withoutHostNames := h
    rw [merge, merge, if_pos h, if_pos h']
    rfl
  · have h' : ¬ c.withoutHostNames.SameIdentity delta.withoutHostNames := h
    rw [merge, merge, if_neg h, if_neg h']

theorem withoutHostNames_removeReferences (c delta : Component) :
    (c.removeReferences delta).withoutHostNames =
      c.withoutHostNames.removeReferences delta.withoutHostNames := by
  by_cases h : c.SameIdentity delta
  · have h' : c.withoutHostNames.SameIdentity delta.withoutHostNames := h
    rw [removeReferences, removeReferences, if_pos h, if_pos h']
    rfl
  · have h' : ¬ c.withoutHostNames.SameIdentity delta.withoutHostNames := h
    rw [removeReferences, removeReferences, if_neg h, if_neg h']

/-- A component without host names refers to hosts by their ids alone. -/
theorem hasReferences_withoutHostNames (c : Component) :
    c.withoutHostNames.hasReferences = !c.hostIds.isEmpty := by
  simp [hasReferences, withoutHostNames]

theorem removeReferences_of_none (c : Component) {delta : Component} (h : delta.hasReferences = false) :
    c.removeReferences delta = c := by
  simp only [hasReferences, Bool.or_eq_false_iff, Bool.not_eq_false', OrdSet.isEmpty_iff] at h
  rw [removeReferences, h.1.1, h.1.2, h.2]
  simp

theorem hasReferences_of_hostIds (c : Component) (h : c.hostIds.isEmpty = false) :
    c.hasReferences = true := by
  rw [hasReferences, h]
  rfl

/-- Only host names decide what a deletion does to a component: it has no host ids, nor has the delta, but
one of them names hosts. -/
def NamesDecide (c delta : Component) : Prop :=
  c.hostIds = ∅ ∧ delta.hostIds = ∅ ∧ (c.hasReferences = true ∨ delta.hasReferences = true)

end Component

namespace Topology

/-! ### Merging -/

theorem map_mergeComponent (delta : Component) (items : List Component) :
    (mergeComponent delta.withoutHostNames (items.map Component.withoutHostNames)).1 =
      (mergeComponent delta items).1.map Component.withoutHostNames := by
  induction items with
  | nil => rfl
  | cons c rest ih =>
    rw [List.map_cons, mergeComponent, mergeComponent]
    by_cases h : c.SameIdentity delta
    · have h' : c.withoutHostNames.SameIdentity delta.withoutHostNames := h
      rw [if_pos h, if_pos h', ← Component.withoutHostNames_merge]
      rfl
    · have h' : ¬ c.withoutHostNames.SameIdentity delta.withoutHostNames := h
      rw [if_neg h, if_neg h']
      exact congrArg (c.withoutHostNames :: ·) ih

/-- Clearing host names and merging may be done in either order. -/
theorem agentCopy_merge (t delta : Topology) :
    (t.agentCopy.merge delta.agentCopy).1 = (t.merge delta).1.agentCopy := by
  have hcomponents : ∀ deltas items : List Component,
      (runSteps mergeComponent (deltas.map Component.withoutHostNames)
        (items.map Component.withoutHostNames)).1 =
      (runSteps mergeComponent deltas items).1.map Component.withoutHostNames := by
    intro deltas
    induction deltas with
    | nil => exact fun _ => rfl
    | cons d deltas ih =>
      intro items
      rw [List.map_cons, fst_runSteps_cons, fst_runSteps_cons, map_mergeComponent, ih]
  exact congrArg (Topology.mk · _) (hcomponents delta.components t.components)

/-! ### Deleting -/

/-- Whether a deletion takes a component away: the first one of the identity of the delta goes if neither
has references. -/
def takes (delta : Component) (items : List Component) : Bool :=
  (items.find? (·.SameIdentity delta)).any fun c => !delta.hasReferences && !c.hasReferences

theorem takes_cons_of_same {c delta : Component} (h : c.SameIdentity delta) (rest : List Component) :
    takes delta (c :: rest) = (!delta.hasReferences && !c.hasReferences) := by
  simp only [takes, List.find?_cons, h, decide_true, Option.any_some]

theorem takes_cons_of_ne {c delta : Component} (h : ¬ c.SameIdentity delta) (rest : List Component) :
    takes delta (c :: rest) = takes delta rest := by
  simp only [takes, List.find?_cons, h, decide_false]

/-- The first component of the identity of the delta is taken away, or left with fewer references. -/
theorem removeComponent_cons_of_same {c delta : Component} (h : c.SameIdentity delta)
    (rest : List Component) :
    (removeComponent delta (c :: rest)).1 =
      if takes delta (c :: rest) then rest else c.removeReferences delta :: rest := by
  rw [takes_cons_of_same h, removeComponent, if_pos h]
  cases hd : delta.hasReferences with
  | true => rfl
  | false =>
    rw [Component.removeReferences_of_none c hd]
    cases hc : c.hasReferences <;> rfl

theorem removeComponent_cons_of_ne {c delta : Component} (h : ¬ c.SameIdentity delta)
    (rest : List Component) :
    (removeComponent delta (c :: rest)).1 = c :: (removeComponent delta rest).1 := by
  rw [removeComponent, if_neg h]

/-- Identities keep their places, except for that of a component taken away. -/
theorem identities_removeComponent (delta : Component) (items : List Component) :
    (removeComponent delta items).1.map Component.identity =
      if takes delta items then (items.map Component.identity).erase delta.identity
      else items.map Component.identity := by
  induction items with
  | nil => rfl
  | cons c rest ih =>
    by_cases h : c.SameIdentity delta
    · have hid : c.identity = delta.identity := Component.sameIdentity_iff.1 h
      rw [removeComponent_cons_of_same h]
      split <;> simp [hid]
    · have hid : c.identity ≠ delta.identity := fun e => h (Component.sameIdentity_iff.2 e)
      rw [removeComponent_cons_of_ne h, takes_cons_of_ne h, List.map_cons, ih, List.map_cons,
        List.erase_cons_tail (by simpa using hid)]
      split <;> rfl

/-- Where clearing host names does not change whether a component is taken away, the step may come before
or after it. -/
theorem map_removeComponent {delta : Component} {items : List Component}
    (h : takes delta.withoutHostNames (items.map Component.withoutHostNames) = takes delta items) :
    (removeComponent delta.withoutHostNames (items.map Component.withoutHostNames)).1 =
      (removeComponent delta items).1.map Component.withoutHostNames := by
  induction items with
  | nil => rfl
  | cons c rest ih =>
    rw [List.map_cons] at h ⊢
    by_cases hc : c.SameIdentity delta
    · have hc' : c.withoutHostNames.SameIdentity delta.withoutHostNames := hc
      rw [removeComponent_cons_of_same hc', removeComponent_cons_of_same hc, h]
      split
      next => rfl
      next => rw [List.map_cons, Component.withoutHostNames_removeReferences]
    · have hc' : ¬ c.withoutHostNames.SameIdentity delta.withoutHostNames := hc
      rw [takes_cons_of_ne hc', takes_cons_of_ne hc] at h
      rw [removeComponent_cons_of_ne hc', removeComponent_cons_of_ne hc, ih h, List.map_cons]

/-- Clearing host names changes whether a component is taken away exactly if names decide it. -/
theorem takes_withoutHostNames_iff {delta : Component} {items : List Component} :
    takes delta.withoutHostNames (items.map Component.withoutHostNames) = takes delta items ↔
      ∀ c, items.find? (·.SameIdentity delta) = some c → ¬ c.NamesDecide delta := by
  have hfind : (items.map Component.withoutHostNames).find? (·.SameIdentity delta.withoutHostNames) =
      (items.find? (·.SameIdentity delta)).map Component.withoutHostNames :=
    List.find?_map ..
  rw [takes, takes, hfind]
  cases items.find? (·.SameIdentity delta) with
  | none => simp
  | some c =>
    simp only [Option.map_some, Option.any_some, Component.hasReferences_withoutHostNames, Bool.not_not,
      Option.some.injEq, forall_eq', Component.NamesDecide, ← OrdSet.isEmpty_iff]
    -- whatever has no references has no host ids
    have hc := c.hasReferences_of_hostIds
    have hd := delta.hasReferences_of_hostIds
    grind

/-- What a deletion takes away with host names, it takes away without them. -/
theorem takes_withoutHostNames {delta : Component} {items : List Component} (h : takes delta items = true) :
    takes delta.withoutHostNames (items.map Component.withoutHostNames) = true := by
  refine (takes_withoutHostNames_iff.2 fun c hc hdecide => ?_).trans h
  rw [takes, hc, Option.any_some, Bool.and_eq_true, Bool.not_eq_true', Bool.not_eq_true'] at h
  obtain ⟨-, -, hnamed | hnamed⟩ := hdecide
  · cases h.2.symm.trans hnamed
  · cases h.1.symm.trans hnamed

/-- At no turn of a deletion do names decide what it does to the component whose turn it is. -/
def NamesNeverDecide : (deltas items : List Component) → Prop
  | [], _ => True
  | delta :: deltas, items =>
    (∀ c, items.find? (·.SameIdentity delta) = some c → ¬ c.NamesDecide delta) ∧
      NamesNeverDecide deltas (removeComponent delta items).1

theorem namesNeverDecide_nil (deltas : List Component) : NamesNeverDecide deltas [] := by
  induction deltas with
  | nil => trivial
  | cons delta deltas ih => exact ⟨nofun, ih⟩

/-- The components of a topology and those of a deletion, all of them cleared. -/
theorem map_runSteps_removeComponent {deltas items : List Component} (h : NamesNeverDecide deltas items) :
    (runSteps removeComponent (deltas.map Component.withoutHostNames)
      (items.map Component.withoutHostNames)).1 =
    (runSteps removeComponent deltas items).1.map Component.withoutHostNames := by
  induction deltas generalizing items with
  | nil => rfl
  | cons delta deltas ih =>
    obtain ⟨hhead, hrest⟩ := h
    rw [List.map_cons, fst_runSteps_cons, fst_runSteps_cons,
      map_removeComponent (takes_withoutHostNames_iff.2 hhead), ih hrest]

/-- A deletion takes no component away whose identity it does not name. -/
theorem count_runSteps_removeComponent {deltas items : List Component} {k : String × String}
    (hk : k ∉ deltas.map Component.identity) :
    ((runSteps removeComponent deltas items).1.map Component.identity).count k =
      (items.map Component.identity).count k := by
  have hstep : ∀ delta ∈ deltas, ∀ l : List Component,
      (l.map Component.identity).count k = (items.map Component.identity).count k →
      ((removeComponent delta l).1.map Component.identity).count k =
        (items.map Component.identity).count k := by
    intro delta hdelta l hl
    have hne : k ≠ delta.identity := fun e => hk (e ▸ List.mem_map_of_mem hdelta)
    rw [identities_removeComponent]
    split
    next => rw [List.count_erase_of_ne hne, hl]
    next => exact hl
  exact runSteps_preserves hstep rfl

theorem identities_map_withoutHostNames (items : List Component) :
    (items.map Component.withoutHostNames).map Component.identity = items.map Component.identity :=
  List.map_map

theorem identity_mem_of_takes {delta : Component} {items : List Component} (h : takes delta items = true) :
    delta.identity ∈ items.map Component.identity := by
  obtain ⟨c, hfind, -⟩ := (Option.any_eq_true _ _).1 h
  have hc : c.SameIdentity delta := by simpa using List.find?_some hfind
  rw [← Component.sameIdentity_iff.1 hc]
  exact List.mem_map_of_mem (List.mem_of_find?_eq_some hfind)

/-- Of the identity of a delta that is named once, a deletion takes one component away or none. -/
theorem count_runSteps_cons {delta : Component} {deltas : List Component}
    (hnot : delta.identity ∉ deltas.map Component.identity) (items : List Component) :
    ((runSteps removeComponent (delta :: deltas) items).1.map Component.identity).count delta.identity +
      (takes delta items).toNat = (items.map Component.identity).count delta.identity := by
  rw [fst_runSteps_cons, count_runSteps_removeComponent hnot, identities_removeComponent]
  cases htakes : takes delta items with
  | false => rfl
  | true =>
    have hpos := List.count_pos_iff.2 (identity_mem_of_takes htakes)
    rw [if_pos rfl, List.count_erase_self, Bool.toNat_true]
    omega

/-- Where names decide what a deletion does that names no identity twice, one component too many is gone without
them, and none of the other deltas makes up for it. -/
theorem exists_lost {deltas items : List Component} (hd : (deltas.map Component.identity).Nodup)
    (h : ¬ NamesNeverDecide deltas items) :
    ∃ k, ((runSteps removeComponent (deltas.map Component.withoutHostNames)
        (items.map Component.withoutHostNames)).1.map Component.identity).count k + 1 =
      ((runSteps removeComponent deltas items).1.map Component.identity).count k := by
  induction deltas generalizing items with
  | nil => exact absurd trivial h
  | cons delta deltas ih =>
    obtain ⟨hnot, hd'⟩ := List.nodup_cons.1 hd
    by_cases htakes : takes delta.withoutHostNames (items.map Component.withoutHostNames) = takes delta items
    · -- names decide at a later turn
      obtain ⟨k, hk⟩ := ih hd' fun hrest => h ⟨takes_withoutHostNames_iff.1 htakes, hrest⟩
      refine ⟨k, ?_⟩
      rwa [List.map_cons, fst_runSteps_cons, fst_runSteps_cons, map_removeComponent htakes]
    · -- they decide at this one, and no other delta is about this identity
      have hkept : takes delta items = false := by
        rw [← Bool.not_eq_true]
        exact fun htaken => htakes ((takes_withoutHostNames htaken).trans htaken.symm)
      have hgone : takes delta.withoutHostNames (items.map Component.withoutHostNames) = true := by
        rwa [hkept, Bool.not_eq_false] at htakes
      have hnot' : delta.withoutHostNames.identity ∉
          (deltas.map Component.withoutHostNames).map Component.identity := by
        rwa [identities_map_withoutHostNames]
      have hcount := count_runSteps_cons hnot items
      have hcount' := count_runSteps_cons hnot' (items.map Component.withoutHostNames)
      rw [hkept, Bool.toNat_false, Nat.add_zero] at hcount
      rw [← List.map_cons, hgone, Bool.toNat_true, identities_map_withoutHostNames,
        Component.identity_withoutHostNames] at hcount'
      exact ⟨delta.identity, hcount'.trans hcount.symm⟩

/-- So such a deletion comes to the same, cleared or not, only if names never decide. -/
theorem namesNeverDecide_of_map {deltas items : List Component}
    (hd : (deltas.map Component.identity).Nodup)
    (heq : (runSteps removeComponent (deltas.map Component.withoutHostNames)
        (items.map Component.withoutHostNames)).1 =
      (runSteps removeComponent deltas items).1.map Component.withoutHostNames) :
    NamesNeverDecide deltas items := by
  by_contra h
  obtain ⟨k, hk⟩ := exists_lost hd h
  rw [heq, identities_map_withoutHostNames] at hk
  exact Nat.succ_ne_self _ hk

/-! ### Verdicts -/

@[simp] theorem isEmpty_agentCopy (t : Topology) : t.agentCopy.isEmpty = t.isEmpty := by
  simp [isEmpty, agentCopy]

/-- Merging a deletion without host names into a topology without host names. What becomes of the scope is
the same. If it stays, what is left of the topology is the agents' copy of what the deletion leaves with the
names, provided that host names never decide what it does to a component. For a deletion that names no
component twice this is also the only case, and in any other the agents' copy has lost a component of some
identity that is still there with the names. -/
theorem agentCopy_deletion (settings : TopologySettings) (scope : ScopeKey) (c d : Topology) :
    let merge := (Strategy.topology settings).merge scope
    ∃ v w, merge (some c) d .delete = .ok v ∧ merge (some c.agentCopy) d.agentCopy .delete = .ok w ∧
      (w = .remove ↔ v = .remove) ∧
      (NamesNeverDecide d.components c.components → w = v.map agentCopy) ∧
      ((d.components.map Component.identity).Nodup → w = v.map agentCopy →
        NamesNeverDecide d.components c.components) ∧
      ((d.components.map Component.identity).Nodup → ¬ NamesNeverDecide d.components c.components →
        ∃ t u k, v = .changed t ∧ w = .changed u ∧
          (u.components.map Component.identity).count k + 1 = (t.components.map Component.identity).count k) := by
  intro merge
  have hmerge : ∀ t delta : Topology, merge (some t) delta .delete =
      if t.isEmpty then .ok .remove else .ok (.changed (t.remove delta).1) := fun _ _ => rfl
  rw [hmerge, hmerge, isEmpty_agentCopy]
  cases hempty : c.isEmpty with
  | true =>
    have hnil : c.components = [] := List.isEmpty_iff.1 (Bool.and_eq_true_iff.1 hempty).1
    have hnever : NamesNeverDecide d.components c.components := by
      rw [hnil]
      exact namesNeverDecide_nil d.components
    exact ⟨.remove, .remove, rfl, rfl, Iff.rfl, fun _ => rfl, fun _ _ => hnever, fun _ h => absurd hnever h⟩
  | false =>
    refine ⟨_, _, rfl, rfl, iff_of_false nofun nofun, fun h => ?_, fun hd heq => ?_, fun hd h => ?_⟩
    · exact congrArg (fun l => Verdict.changed (Topology.mk l _)) (map_runSteps_removeComponent h)
    · exact namesNeverDecide_of_map hd (congrArg Topology.components (Verdict.changed.inj heq))
    · obtain ⟨k, hk⟩ := exists_lost hd h
      exact ⟨_, _, k, rfl, rfl, hk⟩

/-- A cluster of one component, and what deletes its only reference, a host name. -/
def namedByHost : Topology :=
  { components := [{ name := "C", service := "S", hostNames := .ofList ["h"] }] }

/-- The deletion leaves the component without references. Without host names it takes it away. -/
theorem cleared_deletion_removes :
    let merge := (Strategy.topology {}).merge "1"
    let left : Topology := { components := [{ name := "C", service := "S" }] }
    merge (some namedByHost) namedByHost .delete = .ok (.changed left) ∧
    merge (some namedByHost.agentCopy) namedByHost.agentCopy .delete = .ok (.changed {}) ∧
    left.agentCopy ≠ {} :=
  ⟨rfl, rfl, by decide⟩

/-- A deletion that names a component twice may take it away in the end after all. Host names decide what the first
of the two deltas does to it, and still nothing is left of it with them or without. -/
example :
    let twice := namedByHost.components ++ [{ name := "C", service := "S" }]
    ¬ NamesNeverDecide twice namedByHost.components ∧
      (runSteps removeComponent twice namedByHost.components).1 = [] ∧
      (runSteps removeComponent (twice.map Component.withoutHostNames)
        (namedByHost.components.map Component.withoutHostNames)).1 = [] :=
  ⟨fun h => h.1 _ rfl ⟨rfl, rfl, .inl rfl⟩, rfl, rfl⟩

end Topology
end FleetSync
