import FleetSync.Proofs.Topology.Combining
import FleetSync.Proofs.Traversal

/-!
What creating and updating make of a topology.

`Topology.IsMerge` says of a topology that it is what a delta makes of another one, without going through the
delta step by step. Components and hosts that were there keep their places, and new ones follow where the delta
brings them up first. A component has all references that it had or that some delta component of its identity
names; of its version, its display name and each of its parameters the last one given counts. A host is as the
delta has it last. A delta may name an identity or an id as often as it likes, and what one of its entries adds
is what the next one is merged into; `isMerge_iff` is by induction on these entries, for one component
(`Component.accumulates_foldl`) and for the list of them (`Combines.find?_runSteps`).
-/
namespace FleetSync

namespace Component

/-- A component is another one with everything that some deltas give. -/
structure Accumulates (base : Component) (deltas : List Component) (c : Component) : Prop where
  identity : c.identity = base.identity
  hostIds : ∀ x, x ∈ c.hostIds ↔ x ∈ base.hostIds ∨ ∃ d ∈ deltas, x ∈ d.hostIds
  hostNames : ∀ x, x ∈ c.hostNames ↔ x ∈ base.hostNames ∨ ∃ d ∈ deltas, x ∈ d.hostNames
  publicHostNames : ∀ x, x ∈ c.publicHostNames ↔
    x ∈ base.publicHostNames ∨ ∃ d ∈ deltas, x ∈ d.publicHostNames
  /-- A version that is empty is not given. -/
  version : c.version = lastGiven base.version (fun d => d.version.filter (· ≠ "")) deltas
  displayName : c.displayName = lastGiven base.displayName (·.displayName) deltas
  levelParams : ∀ k, c.levelParams.get? k =
    lastGiven (base.levelParams.get? k) (·.levelParams.get? k) deltas
  commandParams : ∀ k, c.commandParams.get? k =
    lastGiven (base.commandParams.get? k) (·.commandParams.get? k) deltas

theorem Accumulates.nil (c : Component) : c.Accumulates [] c where
  identity := rfl
  hostIds := by simp
  hostNames := by simp
  publicHostNames := by simp
  version := rfl
  displayName := rfl
  levelParams _ := rfl
  commandParams _ := rfl

/-- One more delta ahead of the others. -/
theorem Accumulates.cons {base d c : Component} {deltas : List Component} (hd : base.SameIdentity d)
    (h : (base.merge d).Accumulates deltas c) : base.Accumulates (d :: deltas) c where
  identity := h.identity.trans (identity_merge base d)
  hostIds x := by simp [h.hostIds, merge_of_same hd, or_assoc]
  hostNames x := by simp [h.hostNames, merge_of_same hd, or_assoc]
  publicHostNames x := by simp [h.publicHostNames, merge_of_same hd, or_assoc]
  version := by rw [h.version, merge_of_same hd, lastGiven_cons]; rfl
  displayName := by rw [h.displayName, merge_of_same hd, lastGiven_cons]
  levelParams k := by rw [h.levelParams, merge_of_same hd, lastGiven_cons, OrdMap.get?_overlay]
  commandParams k := by rw [h.commandParams, merge_of_same hd, lastGiven_cons, OrdMap.get?_overlay]

/-- Merging deltas one after another. -/
theorem accumulates_foldl {base : Component} {deltas : List Component}
    (h : ∀ d ∈ deltas, d.identity = base.identity) : base.Accumulates deltas (deltas.foldl merge base) := by
  induction deltas generalizing base with
  | nil => exact .nil base
  | cons d deltas ih =>
    have hd : base.SameIdentity d := sameIdentity_iff.2 (h d List.mem_cons_self).symm
    refine .cons hd (ih fun e he => ?_)
    rw [identity_merge, h e (List.mem_cons_of_mem d he)]

/-- Nothing about the component is left open. -/
theorem Accumulates.unique {base c c' : Component} {deltas : List Component} (h : base.Accumulates deltas c)
    (h' : base.Accumulates deltas c') : c = c' := by
  obtain ⟨hname, hservice⟩ := sameIdentity_iff.2 (h.identity.trans h'.identity.symm)
  have hdisplay := h.displayName.trans h'.displayName.symm
  have hversion := h.version.trans h'.version.symm
  have hids : c.hostIds = c'.hostIds := OrdSet.ext_mem fun x => (h.hostIds x).trans (h'.hostIds x).symm
  have hnames : c.hostNames = c'.hostNames :=
    OrdSet.ext_mem fun x => (h.hostNames x).trans (h'.hostNames x).symm
  have hpublic : c.publicHostNames = c'.publicHostNames :=
    OrdSet.ext_mem fun x => (h.publicHostNames x).trans (h'.publicHostNames x).symm
  have hlevel : c.levelParams = c'.levelParams :=
    OrdMap.ext_get? fun k => (h.levelParams k).trans (h'.levelParams k).symm
  have hcommand : c.commandParams = c'.commandParams :=
    OrdMap.ext_get? fun k => (h.commandParams k).trans (h'.commandParams k).symm
  cases c
  cases c'
  simp_all only

end Component

/-- Lists with the same keys in the same order are the same if no key stands for two items. -/
theorem eq_of_map_eq {α κ : Type} {key : α → κ} {l m : List α} (hkeys : l.map key = m.map key)
    (h : ∀ c ∈ l, ∀ d ∈ m, key c = key d → c = d) : l = m := by
  induction l generalizing m with
  | nil => exact (List.map_eq_nil_iff.1 hkeys.symm).symm
  | cons c l ih =>
    obtain ⟨d, m, rfl, hd, hm⟩ := List.map_eq_cons_iff.1 hkeys.symm
    rw [h c List.mem_cons_self d List.mem_cons_self hd.symm,
      ih hm.symm fun c hc d hd => h c (List.mem_cons_of_mem _ hc) d (List.mem_cons_of_mem _ hd)]

/-- Putting each delta in the place of the one before leaves the last one. -/
theorem foldl_replace {α : Type} (base : α) (deltas : List α) :
    deltas.foldl (fun _ d => d) base = deltas.getLast?.getD base := by
  induction deltas generalizing base with
  | nil => rfl
  | cons d deltas ih => rw [List.foldl_cons, ih, List.getLast?_cons, Option.getD_some]

namespace Topology

/-- A topology is what creating or updating by a delta makes of another one. -/
structure IsMerge (t delta result : Topology) : Prop where
  unique : result.Unique
  /-- Components keep their places, and new ones follow in the order in which they come up first. -/
  identities : result.components.map Component.identity = t.components.map Component.identity ++
    ((delta.components.map Component.identity).filter
      (· ∉ t.components.map Component.identity)).eraseDups
  /-- A component has what it had, or what the first delta of its identity had, and all that the deltas of its
  identity give. -/
  component : ∀ c ∈ result.components, ∃ base,
    (t.components ++ delta.components).find? (·.identity = c.identity) = some base ∧
      base.Accumulates (delta.components.filter (·.identity = c.identity)) c
  componentKept : ∀ (i : Nat) c, t.components[i]? = some c →
    c.identity ∉ delta.components.map Component.identity → result.components[i]? = some c
  /-- Hosts keep their places, and new ones follow in the order in which they come up first. -/
  hostIds : result.hosts.map Host.id = t.hosts.map Host.id ++
    ((delta.hosts.map Host.id).filter (· ∉ t.hosts.map Host.id)).eraseDups
  /-- A host is as the delta has it last, or as it was. -/
  host : ∀ h ∈ result.hosts, (delta.hosts.filter (·.id = h.id)).getLast?.or (t.host? h.id) = some h
  hostKept : ∀ (i : Nat) h, t.hosts[i]? = some h → h.id ∉ delta.hosts.map Host.id →
    result.hosts[i]? = some h

/-- The outcome for components, each of which has all that the deltas for it give. -/
theorem accumulates_of_mem_mergeComponents {deltas items : List Component}
    (hitems : (items.map Component.identity).Nodup) {c : Component}
    (hc : c ∈ (runSteps mergeComponent deltas items).1) :
    ∃ base, (items ++ deltas).find? (·.identity = c.identity) = some base ∧
      base.Accumulates (deltas.filter (·.identity = c.identity)) c := by
  obtain ⟨base, hbase, hfold⟩ := combines_mergeComponent.eq_of_mem_runSteps band_merge hitems hc
  have hid : base.identity = c.identity := by simpa using List.find?_some hbase
  have hsame : ∀ d ∈ deltas.filter (·.identity = c.identity), d.identity = base.identity := by
    intro d hd
    rw [hid]
    simpa using (List.mem_filter.1 hd).2
  have hacc := Component.accumulates_foldl hsame
  rw [hfold] at hacc
  exact ⟨base, hbase, hacc⟩

/-- The outcome for hosts, of which the last one of an id counts. -/
theorem getLast?_of_mem_mergeHosts {deltas hosts : List Host} (hhosts : (hosts.map Host.id).Nodup) {h : Host}
    (hh : h ∈ (runSteps mergeHost deltas hosts).1) :
    (deltas.filter (·.id = h.id)).getLast?.or (hosts.find? (·.id = h.id)) = some h := by
  obtain ⟨base, hbase, hfold⟩ := combines_mergeHost.eq_of_mem_runSteps band_replace hhosts hh
  rw [foldl_replace] at hfold
  cases hlast : (deltas.filter (·.id = h.id)).getLast? with
  | some last =>
    rw [hlast] at hfold
    exact congrArg some hfold
  | none =>
    -- no delta has the id, so the host was there
    rw [hlast] at hfold
    have hnone : deltas.find? (·.id = h.id) = none := by
      rw [← List.head?_filter, List.getLast?_eq_none_iff.1 hlast]
      rfl
    rw [List.find?_append, hnone, Option.or_none, show base = h from hfold] at hbase
    exact hbase

/-- Nothing about the outcome is left open. -/
theorem IsMerge.determined {t delta u u' : Topology} (h : t.IsMerge delta u) (h' : t.IsMerge delta u') :
    u = u' := by
  have hcomponents : u.components = u'.components := by
    refine eq_of_map_eq (h.identities.trans h'.identities.symm) fun c hc c' hc' hid => ?_
    obtain ⟨base, hbase, hacc⟩ := h.component c hc
    obtain ⟨base', hbase', hacc'⟩ := h'.component c' hc'
    rw [hid] at hbase hacc
    obtain rfl := Option.some.inj (hbase.symm.trans hbase')
    exact hacc.unique hacc'
  have hhosts : u.hosts = u'.hosts := by
    refine eq_of_map_eq (h.hostIds.trans h'.hostIds.symm) fun x hx x' hx' hid => ?_
    have hlast := h.host x hx
    rw [hid] at hlast
    exact Option.some.inj (hlast.symm.trans (h'.host x' hx'))
  cases u
  cases u'
  simp_all only

theorem isMerge_merge {t : Topology} (ht : t.Unique) (delta : Topology) :
    t.IsMerge delta (t.merge delta).1 where
  unique := ht.update delta .update
  identities := combines_mergeComponent.extends.map_key_runSteps delta.components t.components
  component _ hc := accumulates_of_mem_mergeComponents ht.components hc
  componentKept _ _ hi hnot := combines_mergeComponent.getElem?_runSteps hi hnot
  hostIds := combines_mergeHost.extends.map_key_runSteps delta.hosts t.hosts
  host _ hh := getLast?_of_mem_mergeHosts ht.hosts hh
  hostKept _ _ hi hnot := combines_mergeHost.getElem?_runSteps hi hnot

/-- What creating or updating by a delta makes of a topology without repetition, whatever the delta repeats:
its merge with the delta, and nothing else is one. -/
theorem isMerge_iff {t : Topology} (ht : t.Unique) (delta : Topology) {type : EventType}
    (htype : type ≠ .delete) (result : Topology) :
    t.IsMerge delta result ↔ result = (t.update delta type).1 := by
  have hmerge := isMerge_merge ht delta
  rw [update_of_ne_delete t delta htype]
  constructor
  · intro h
    exact h.determined hmerge
  · rintro rfl
    exact hmerge

/-- A cluster with a component on one host, and one on none. -/
def ofTwo : Topology where
  components := [
    { name := "A", service := "S", version := some "1", hostIds := .ofList [1]
      levelParams := .ofList [("k", "old"), ("m", "old")] },
    { name := "B", service := "S" }]
  hosts := [{ id := 1, name := "a" }, { id := 2, name := "b" }]

/-- A delta that names two components and one host twice, and does not agree with itself. -/
def ofTwiceNamed : Topology where
  components := [
    { name := "A", service := "S", version := some "2", displayName := some "x", hostIds := .ofList [2]
      levelParams := .ofList [("k", "first")] },
    { name := "C", service := "S", version := some "" },
    { name := "A", service := "S", version := some "", hostIds := .ofList [1, 3]
      levelParams := .ofList [("k", "second")] },
    { name := "C", service := "S", displayName := some "y", hostNames := .ofList ["h"] }]
  hosts := [{ id := 3, name := "c" }, { id := 1, name := "a'" }, { id := 3, name := "c'", rack := some "r" }]

/-- What the delta makes of the cluster. -/
def twiceNamedInTwo : Topology where
  components := [
    { name := "A", service := "S", version := some "2", displayName := some "x"
      hostIds := .ofList [1, 2, 3], levelParams := .ofList [("k", "second"), ("m", "old")] },
    { name := "B", service := "S" },
    { name := "C", service := "S", version := some "", displayName := some "y", hostNames := .ofList ["h"] }]
  hosts := [{ id := 1, name := "a'" }, { id := 2, name := "b" }, { id := 3, name := "c'", rack := some "r" }]

theorem isMerge_twiceNamedInTwo :
    ofTwo.Unique ∧ EventType.create ≠ .delete ∧ ofTwo.IsMerge ofTwiceNamed twiceNamedInTwo := by
  have hunique : ofTwo.Unique := by decide
  have htype : EventType.create ≠ .delete := by decide
  have hresult : twiceNamedInTwo = (ofTwo.update ofTwiceNamed .create).1 := by decide +kernel
  exact ⟨hunique, htype, (isMerge_iff hunique ofTwiceNamed htype twiceNamedInTwo).2 hresult⟩

end Topology
end FleetSync
