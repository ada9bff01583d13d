import FleetSync.Proofs.Topology.Combining
import FleetSync.Proofs.Topology.Removing
import Mathlib.Data.List.Forall2
import Mathlib.Data.List.ReduceOption

/-!
What deleting makes of a topology.

Deleting adds nothing: of each component a part is left (`Component.PartOf`) or nothing is, and of the hosts
those are left that are not named. A topology and a deletion that repeat no component determine what is left
of each component on its own (`Component.Deleted`). A delta that names references takes these and leaves the
component, even one without any. A delta that names none takes the component if it has none, and else leaves
it as it is. `Topology.IsDeletion` says so of a whole topology without going through the deletion step by
step, and `isDeletion_iff` is by induction on its steps. Each of these comes to the same function, applied to
one component after another (`Component.afterDeletion`), since a step for one component does not touch the
others.
-/
namespace FleetSync

/-- The members of a set that are not named are the part of it that does without those named. -/
theorem OrdSet.eq_diff {κ : Type} [LT κ] [LinearKey κ] [DecidableEq κ] {left own named : OrdSet κ}
    (hpart : ∀ x ∈ left, x ∈ own) (hleft : ∀ x ∈ own, x ∈ left ↔ x ∉ named) : left = own.diff named := by
  refine OrdSet.ext_mem fun x => ?_
  rw [mem_diff]
  constructor
  · intro hx
    exact ⟨hpart x hx, (hleft x (hpart x hx)).1 hx⟩
  · rintro ⟨hown, hnot⟩
    exact (hleft x hown).2 hnot

namespace Component

/-- One component is another one, with some of its references at most. -/
structure PartOf (left c : Component) : Prop where
  identity : left.identity = c.identity
  displayName : left.displayName = c.displayName
  version : left.version = c.version
  levelParams : left.levelParams = c.levelParams
  commandParams : left.commandParams = c.commandParams
  hostIds : ∀ x ∈ left.hostIds, x ∈ c.hostIds
  hostNames : ∀ x ∈ left.hostNames, x ∈ c.hostNames
  publicHostNames : ∀ x ∈ left.publicHostNames, x ∈ c.publicHostNames

theorem PartOf.refl (c : Component) : c.PartOf c :=
  ⟨rfl, rfl, rfl, rfl, rfl, fun _ => id, fun _ => id, fun _ => id⟩

theorem PartOf.trans {c d e : Component} (hcd : c.PartOf d) (hde : d.PartOf e) : c.PartOf e where
  identity := hcd.identity.trans hde.identity
  displayName := hcd.displayName.trans hde.displayName
  version := hcd.version.trans hde.version
  levelParams := hcd.levelParams.trans hde.levelParams
  commandParams := hcd.commandParams.trans hde.commandParams
  hostIds x hx := hde.hostIds x (hcd.hostIds x hx)
  hostNames x hx := hde.hostNames x (hcd.hostNames x hx)
  publicHostNames x hx := hde.publicHostNames x (hcd.publicHostNames x hx)

instance : Std.Refl PartOf := ⟨PartOf.refl⟩

instance : IsTrans Component PartOf := ⟨fun _ _ _ => PartOf.trans⟩

theorem partOf_removeReferences (c delta : Component) : (c.removeReferences delta).PartOf c := by
  by_cases h : c.SameIdentity delta
  · rw [removeReferences, if_pos h]
    exact ⟨rfl, rfl, rfl, rfl, rfl, fun _ hx => (OrdSet.mem_diff.1 hx).1, fun _ hx => (OrdSet.mem_diff.1 hx).1,
      fun _ hx => (OrdSet.mem_diff.1 hx).1⟩
  · rw [removeReferences, if_neg h]
    exact .refl c

/-- What is left of a component without exactly the references that a delta names. -/
structure Strips (delta c left : Component) : Prop where
  part : left.PartOf c
  hostIds : ∀ x ∈ c.hostIds, x ∈ left.hostIds ↔ x ∉ delta.hostIds
  hostNames : ∀ x ∈ c.hostNames, x ∈ left.hostNames ↔ x ∉ delta.hostNames
  publicHostNames : ∀ x ∈ c.publicHostNames, x ∈ left.publicHostNames ↔ x ∉ delta.publicHostNames

theorem strips_iff {c delta : Component} (h : c.SameIdentity delta) (left : Component) :
    delta.Strips c left ↔ left = c.removeReferences delta := by
  have hdiff : c.removeReferences delta = { c with
      hostIds := c.hostIds.diff delta.hostIds
      hostNames := c.hostNames.diff delta.hostNames
      publicHostNames := c.publicHostNames.diff delta.publicHostNames } := if_pos h
  constructor
  · intro hs
    obtain ⟨hname, hservice⟩ := sameIdentity_iff.2 hs.part.identity
    have hids := OrdSet.eq_diff hs.part.hostIds hs.hostIds
    have hnames := OrdSet.eq_diff hs.part.hostNames hs.hostNames
    have hpublic := OrdSet.eq_diff hs.part.publicHostNames hs.publicHostNames
    obtain ⟨⟨-, hdisplay, hversion, hlevel, hcommand, -, -, -⟩, -, -, -⟩ := hs
    rw [hdiff]
    cases left
    simp_all only
  · rintro rfl
    refine ⟨partOf_removeReferences c delta, ?_, ?_, ?_⟩ <;> rw [hdiff] <;> intro x hx <;> simp [hx]

/-- What a deletion leaves of a component, if anything. -/
inductive Deleted (deltas : List Component) (c : Component) : Option Component → Prop
  /-- The deletion does not name the component. -/
  | unnamed (hnot : c.identity ∉ deltas.map identity) : Deleted deltas c (some c)
  /-- It names references of the component. -/
  | stripped {delta left : Component} (hmem : delta ∈ deltas) (hid : delta.identity = c.identity)
    (hrefs : delta.hasReferences = true) (h : delta.Strips c left) : Deleted deltas c (some left)
  /-- It names no references, and there are none. -/
  | taken {delta : Component} (hmem : delta ∈ deltas) (hid : delta.identity = c.identity)
    (hnone : delta.hasReferences = false) (h : c.hasReferences = false) : Deleted deltas c none
  /-- It names no references, but there are some. -/
  | kept {delta : Component} (hmem : delta ∈ deltas) (hid : delta.identity = c.identity)
    (hnone : delta.hasReferences = false) (h : c.hasReferences = true) : Deleted deltas c (some c)

/-- What a delta of its identity leaves of a component. -/
def leftBy (delta c : Component) : Option Component :=
  if delta.hasReferences then some (c.removeReferences delta)
  else if c.hasReferences then some c
  else none

theorem identity_of_leftBy {delta c left : Component} (h : delta.leftBy c = some left) :
    left.identity = c.identity := by
  rw [leftBy] at h
  split at h
  next => rw [← Option.some.inj h, identity_removeReferences]
  next =>
    split at h
    next => rw [← Option.some.inj h]
    next => cases h

/-- What the first delta of its identity, if there is one, leaves of a component. -/
def afterDeletion (deltas : List Component) (c : Component) : Option Component :=
  (deltas.find? (·.identity = c.identity)).elim (some c) fun delta => delta.leftBy c

theorem afterDeletion_of_not_mem {deltas : List Component} {c : Component}
    (h : c.identity ∉ deltas.map identity) : c.afterDeletion deltas = some c := by
  have hfind : deltas.find? (·.identity = c.identity) = none := by simpa using h
  rw [afterDeletion, hfind]
  rfl

theorem afterDeletion_cons_of_eq {delta c : Component} (h : delta.identity = c.identity)
    (deltas : List Component) : c.afterDeletion (delta :: deltas) = delta.leftBy c := by
  rw [afterDeletion, List.find?_cons_of_pos (by simpa using h)]
  rfl

theorem afterDeletion_cons_of_ne {delta c : Component} (h : delta.identity ≠ c.identity)
    (deltas : List Component) : c.afterDeletion (delta :: deltas) = c.afterDeletion deltas := by
  rw [afterDeletion, List.find?_cons_of_neg (by simpa using h), afterDeletion]

/-- A deletion does to a component what its first delta does, and then the others. -/
theorem afterDeletion_cons {delta : Component} {deltas : List Component}
    (hnot : delta.identity ∉ deltas.map identity) (c : Component) :
    c.afterDeletion (delta :: deltas) = (c.afterDeletion [delta]).bind (afterDeletion deltas) := by
  by_cases hid : delta.identity = c.identity
  · rw [afterDeletion_cons_of_eq hid, afterDeletion_cons_of_eq hid]
    cases hleft : delta.leftBy c with
    | none => rfl
    | some left =>
      -- no other delta has the identity of what is left
      have hrest : left.identity ∉ deltas.map identity := by
        rwa [identity_of_leftBy hleft, ← hid]
      exact (afterDeletion_of_not_mem hrest).symm
  · rw [afterDeletion_cons_of_ne hid, afterDeletion_cons_of_ne hid]
    rfl

/-- Where a deletion repeats no component, it leaves of a component what the delta of its identity leaves. -/
theorem deleted_iff {deltas : List Component} (hdeltas : (deltas.map identity).Nodup) (c : Component)
    (left : Option Component) : c.Deleted deltas left ↔ left = c.afterDeletion deltas := by
  have hnamed : ∀ delta ∈ deltas, delta.identity = c.identity → c.afterDeletion deltas = delta.leftBy c := by
    intro delta hmem hid
    rw [afterDeletion, ← hid, Topology.find?_key_of_mem hdeltas hmem]
    rfl
  constructor
  · intro h
    cases h with
    | unnamed hnot => exact (afterDeletion_of_not_mem hnot).symm
    | stripped hmem hid hrefs h =>
      rw [hnamed _ hmem hid, (strips_iff (sameIdentity_iff.2 hid.symm) _).1 h, leftBy, if_pos hrefs]
    | taken hmem hid hnone h => simp [hnamed _ hmem hid, leftBy, hnone, h]
    | kept hmem hid hnone h => simp [hnamed _ hmem hid, leftBy, hnone, h]
  · rintro rfl
    by_cases hmem : c.identity ∈ deltas.map identity
    · obtain ⟨delta, hmem, hid⟩ := List.mem_map.1 hmem
      rw [hnamed delta hmem hid, leftBy]
      split
      next hrefs => exact .stripped hmem hid hrefs ((strips_iff (sameIdentity_iff.2 hid.symm) _).2 rfl)
      next hnone =>
        rw [Bool.not_eq_true] at hnone
        split
        next h => exact .kept hmem hid hnone h
        next h => exact .taken hmem hid hnone (Bool.eq_false_of_not_eq_true h)
    · rw [afterDeletion_of_not_mem hmem]
      exact .unnamed hmem

end Component

namespace Topology

/-! ### What is left of components -/

/-- A step of a deletion leaves a part of what is there. -/
theorem sublist_removeComponent (delta : Component) (items : List Component) :
    List.SublistForall₂ Component.PartOf (removeComponent delta items).1 items := by
  induction items with
  | nil => exact .nil
  | cons c rest ih =>
    by_cases h : c.SameIdentity delta
    · rw [removeComponent_cons_of_same h]
      split
      next => exact List.tail_sublistForall₂_self (c :: rest)
      next => exact .cons (c.partOf_removeReferences delta) (refl rest)
    · rw [removeComponent_cons_of_ne h]
      exact .cons (.refl c) ih

theorem sublist_runSteps_removeComponent (deltas items : List Component) :
    List.SublistForall₂ Component.PartOf (runSteps removeComponent deltas items).1 items :=
  runSteps_preserves (P := (List.SublistForall₂ Component.PartOf · items))
    (fun delta _ l hl => IsTrans.trans _ _ _ (sublist_removeComponent delta l) hl) (refl items)

/-- A step of a deletion touches no component but the one that it names. -/
theorem removeComponent_eq_filterMap (delta : Component) {items : List Component}
    (hitems : (items.map Component.identity).Nodup) :
    (removeComponent delta items).1 = items.filterMap (Component.afterDeletion [delta]) := by
  induction items with
  | nil => rfl
  | cons c rest ih =>
    obtain ⟨hnot, hrest⟩ := List.nodup_cons.1 hitems
    by_cases h : c.SameIdentity delta
    · have hid : c.identity = delta.identity := Component.sameIdentity_iff.1 h
      have huntouched : rest.filterMap (Component.afterDeletion [delta]) = rest := by
        rw [← ih hrest, removeComponent_of_not_mem (hid ▸ hnot)]
      rw [removeComponent, if_pos h, List.filterMap_cons, huntouched,
        Component.afterDeletion_cons_of_eq hid.symm, Component.leftBy]
      cases delta.hasReferences with
      | true => rfl
      | false => cases c.hasReferences <;> rfl
    · have hother : c.identity ∉ [delta].map Component.identity := by
        simpa using mt Component.sameIdentity_iff.2 h
      rw [removeComponent_cons_of_ne h, ih hrest, List.filterMap_cons_some
        (Component.afterDeletion_of_not_mem hother)]

/-- Neither does a deletion that repeats nothing. -/
theorem runSteps_removeComponent_eq_filterMap {deltas items : List Component}
    (hdeltas : (deltas.map Component.identity).Nodup) (hitems : (items.map Component.identity).Nodup) :
    (runSteps removeComponent deltas items).1 = items.filterMap (Component.afterDeletion deltas) := by
  induction deltas generalizing items with
  | nil => exact List.filterMap_some.symm
  | cons delta deltas ih =>
    obtain ⟨hnot, hdeltas⟩ := List.nodup_cons.1 hdeltas
    have hnext : ((removeComponent delta items).1.map Component.identity).Nodup :=
      (thins_removeComponent delta items).nodup hitems
    rw [fst_runSteps_cons, ih hdeltas hnext, removeComponent_eq_filterMap delta hitems,
      List.filterMap_filterMap]
    exact congrArg (items.filterMap ·) (funext fun c => (Component.afterDeletion_cons hnot c).symm)

/-- Steps each of which takes all of one key take all of their keys. -/
theorem runSteps_eq_filter {α κ : Type} [DecidableEq κ] [BEq κ] [LawfulBEq κ] {key : α → κ}
    {step : α → List α → List α × Bool} {P : List α → Prop} {deltas items : List α}
    (hfilter : ∀ (p : α → Bool) l, P l → P (l.filter p))
    (hstep : ∀ d ∈ deltas, ∀ l, P l → (step d l).1 = l.filter (key · ≠ key d)) (hitems : P items) :
    (runSteps step deltas items).1 = items.filter (key · ∉ deltas.map key) := by
  induction deltas generalizing items with
  | nil => simp [runSteps]
  | cons d deltas ih =>
    obtain ⟨hd, hdeltas⟩ := List.forall_mem_cons.1 hstep
    rw [fst_runSteps_cons, hd items hitems, ih hdeltas (hfilter _ items hitems), List.filter_filter]
    refine List.filter_congr fun c _ => ?_
    rw [Bool.eq_iff_iff]
    simp [and_comm]

/-- All hosts that are named are gone, and no others. -/
theorem runSteps_removeHost (deltas items : List Host) :
    (runSteps removeHost deltas items).1 = items.filter (·.id ∉ deltas.map Host.id) :=
  runSteps_eq_filter (P := fun _ => True) (fun _ _ _ => trivial) (fun _ _ _ _ => rfl) trivial

/-! ### What is left of topologies -/

/-- What is left of a topology by a deletion, neither of which repeats a component. -/
structure IsDeletion (t delta left : Topology) : Prop where
  /-- Components keep their order. Each one is left as the deltas for it say, or not at all. -/
  components : ∃ each : List (Option Component),
    List.Forall₂ (Component.Deleted delta.components) t.components each ∧ left.components = each.reduceOption
  hosts : left.hosts = t.hosts.filter (·.id ∉ delta.hosts.map Host.id)

theorem isDeletion_iff_eq {t delta : Topology} (hdelta : (delta.components.map Component.identity).Nodup)
    (left : Topology) :
    t.IsDeletion delta left ↔ left = {
      components := t.components.filterMap (Component.afterDeletion delta.components)
      hosts := t.hosts.filter (·.id ∉ delta.hosts.map Host.id) } := by
  have heach : ∀ each, List.Forall₂ (Component.Deleted delta.components) t.components each ↔
      each = t.components.map (Component.afterDeletion delta.components) := by
    intro each
    have hdeleted : Component.Deleted delta.components =
        fun c left => c.afterDeletion delta.components = left :=
      funext₂ fun c left => propext ((Component.deleted_iff hdelta c left).trans eq_comm)
    rw [hdeleted, ← List.forall₂_map_left_iff (R := Eq), List.forall₂_eq_eq_eq, eq_comm]
  have hlist : (t.components.map (Component.afterDeletion delta.components)).reduceOption =
      t.components.filterMap (Component.afterDeletion delta.components) :=
    List.filterMap_map ..
  constructor
  · rintro ⟨⟨each, hdeleted, hcomponents⟩, hhosts⟩
    rw [(heach each).1 hdeleted, hlist] at hcomponents
    cases left
    exact congrArg₂ Topology.mk hcomponents hhosts
  · rintro rfl
    exact ⟨⟨_, (heach _).2 rfl, hlist.symm⟩, rfl⟩

/-- What deleting makes of a topology.

Nothing is added: the components that are left are old ones, in their order, as they were but for references
that are gone, and the hosts that are left are those that are not named. If neither the topology nor the
deletion repeats a component, each component is left as the delta for it says, and nothing else is such a
deletion. -/
theorem isDeletion_iff (t delta : Topology) :
    let left := (t.update delta .delete).1
    List.SublistForall₂ Component.PartOf left.components t.components ∧
    left.hosts = t.hosts.filter (·.id ∉ delta.hosts.map Host.id) ∧
    ((t.components.map Component.identity).Nodup → (delta.components.map Component.identity).Nodup →
      ∀ result, t.IsDeletion delta result ↔ result = left) := by
  intro left
  have hhosts : left.hosts = t.hosts.filter (·.id ∉ delta.hosts.map Host.id) :=
    runSteps_removeHost delta.hosts t.hosts
  refine ⟨sublist_runSteps_removeComponent delta.components t.components, hhosts, fun ht hdelta result => ?_⟩
  have hcomponents : left.components = t.components.filterMap (Component.afterDeletion delta.components) :=
    runSteps_removeComponent_eq_filterMap hdelta ht
  rw [isDeletion_iff_eq hdelta, ← hcomponents, ← hhosts]

/-- A cluster of four components on three hosts. -/
def ofFour : Topology where
  components := [
    { name := "A", service := "S", version := some "1", hostIds := .ofList [1, 2], hostNames := .ofList ["a"] },
    { name := "B", service := "S" },
    { name := "C", service := "S", hostNames := .ofList ["c"], levelParams := .ofList [("k", "v")] },
    { name := "D", service := "S", hostIds := .ofList [3] }]
  hosts := [{ id := 1, name := "a" }, { id := 2, name := "b" }, { id := 3, name := "c" }]

/-- It names references of one component, some of which there are not, and two others without references. -/
def ofSome : Topology where
  components := [
    { name := "C", service := "S" },
    { name := "B", service := "S" },
    { name := "A", service := "S", version := some "2", hostIds := .ofList [2, 9], hostNames := .ofList ["a"] }]
  hosts := [{ id := 9, name := "" }, { id := 2, name := "" }]

/-- What the deletion leaves of the cluster. -/
def someOffFour : Topology where
  components := [
    { name := "A", service := "S", version := some "1", hostIds := .ofList [1] },
    { name := "C", service := "S", hostNames := .ofList ["c"], levelParams := .ofList [("k", "v")] },
    { name := "D", service := "S", hostIds := .ofList [3] }]
  hosts := [{ id := 1, name := "a" }, { id := 3, name := "c" }]

theorem isDeletion_someOffFour :
    (ofFour.components.map Component.identity).Nodup ∧ (ofSome.components.map Component.identity).Nodup ∧
      ofFour.IsDeletion ofSome someOffFour := by
  have hfour : (ofFour.components.map Component.identity).Nodup := by decide
  have hsome : (ofSome.components.map Component.identity).Nodup := by decide
  have hresult : someOffFour = (ofFour.update ofSome .delete).1 := by decide +kernel
  exact ⟨hfour, hsome, ((isDeletion_iff ofFour ofSome).2.2 hfour hsome someOffFour).2 hresult⟩

end Topology
end FleetSync
