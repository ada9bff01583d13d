import FleetSync.Registry.View
import FleetSync.Topology.Basic
import Mathlib.Data.List.Nodup

/-!
What deltas do to the identities of components and the ids of hosts.

Merging adds the key of a delta at the end unless it is there already, and moves no other key; removing
takes keys away. So keys that are all different stay so under any delta, whatever it repeats itself
(`Unique.update`). The topology of a view is as free of repetition as the view is.
-/
namespace FleetSync

/-- What a component is told from others by. -/
def Component.identity (c : Component) : String × String := (c.name, c.service)

theorem Component.sameIdentity_iff {c d : Component} : c.SameIdentity d ↔ c.identity = d.identity := by
  simp [SameIdentity, identity]

@[simp] theorem Component.identity_merge (c delta : Component) : (c.merge delta).identity = c.identity := by
  rw [merge]
  split <;> rfl

@[simp] theorem Component.identity_removeReferences (c delta : Component) :
    (c.removeReferences delta).identity = c.identity := by
  rw [removeReferences]
  split <;> rfl

namespace Topology

/-! ### Steps in turn -/

section
variable {α κ : Type} {step : α → List α → List α × Bool}

/-- The items after some steps, without the report. -/
theorem fst_runSteps (step : α → List α → List α × Bool) (deltas items : List α) :
    (runSteps step deltas items).1 = deltas.foldl (fun items delta => (step delta items).1) items := by
  rw [runSteps]
  generalize false = changed
  induction deltas generalizing items changed with
  | nil => rfl
  | cons delta deltas ih => exact ih _ _

theorem fst_runSteps_cons (step : α → List α → List α × Bool) (delta : α) (deltas items : List α) :
    (runSteps step (delta :: deltas) items).1 = (runSteps step deltas (step delta items).1).1 := by
  simp only [fst_runSteps, List.foldl_cons]

/-- What every step keeps, all of them together keep. -/
theorem runSteps_preserves {P : List α → Prop} {deltas items : List α}
    (h : ∀ delta ∈ deltas, ∀ items, P items → P (step delta items).1) (hp : P items) :
    P (runSteps step deltas items).1 := by
  rw [fst_runSteps]
  exact List.foldlRecOn deltas _ hp fun items hp delta hdelta => h delta hdelta items hp

/-- A step may come before or after steps that may change places with it, if that depends on nothing that they
do not keep. -/
theorem runSteps_comm {P : List α → Prop} {d : α} {deltas items : List α}
    (hcomm : ∀ e ∈ deltas, ∀ items, P items → (step e (step d items).1).1 = (step d (step e items).1).1)
    (hkeeps : ∀ e ∈ deltas, ∀ items, P items → P (step e items).1) (hp : P items) :
    (runSteps step deltas (step d items).1).1 = (step d (runSteps step deltas items).1).1 := by
  induction deltas generalizing items with
  | nil => rfl
  | cons e deltas ih =>
    obtain ⟨he, hcomm⟩ := List.forall_mem_cons.1 hcomm
    obtain ⟨hkeep, hkeeps⟩ := List.forall_mem_cons.1 hkeeps
    rw [fst_runSteps_cons, fst_runSteps_cons, he items hp, ih hcomm hkeeps (hkeep items hp)]

variable {key : α → κ}

/-- The step adds the key of a delta at the end unless it is there, and moves no other. -/
def Extends [DecidableEq κ] (key : α → κ) (step : α → List α → List α × Bool) : Prop :=
  ∀ delta items, (step delta items).1.map key =
    if key delta ∈ items.map key then items.map key else items.map key ++ [key delta]

/-- The step takes keys away. -/
def Thins (key : α → κ) (step : α → List α → List α × Bool) : Prop :=
  ∀ delta items, ((step delta items).1.map key).Sublist (items.map key)

/-- The step combines a delta with the first item of its key, or adds it at the end. -/
structure Combines (key : α → κ) (combine : α → α → α) (step : α → List α → List α × Bool) : Prop where
  nil : ∀ delta, (step delta []).1 = [delta]
  same : ∀ {c delta}, key c = key delta → ∀ rest, (step delta (c :: rest)).1 = combine c delta :: rest
  other : ∀ {c delta}, key c ≠ key delta →
    ∀ rest, (step delta (c :: rest)).1 = c :: (step delta rest).1
  /-- What is combined keeps its key. -/
  key_combine : ∀ {c delta}, key c = key delta → key (combine c delta) = key c

theorem Combines.extends [DecidableEq κ] {combine : α → α → α} (h : Combines key combine step) :
    Extends key step := by
  intro delta items
  induction items with
  | nil => simp [h.nil]
  | cons c rest ih =>
    by_cases hc : key c = key delta
    · simp [h.same hc, h.key_combine hc, hc]
    · simp only [h.other hc, List.map_cons, ih, List.mem_cons, Ne.symm hc, false_or]
      split <;> rfl

theorem Extends.nodup [DecidableEq κ] (h : Extends key step) (deltas : List α) {items : List α}
    (hitems : (items.map key).Nodup) : ((runSteps step deltas items).1.map key).Nodup := by
  refine runSteps_preserves (P := fun l => (l.map key).Nodup) (fun delta _ items hn => ?_) hitems
  rw [h]
  split
  next => exact hn
  next hnot =>
    rw [← List.concat_eq_append]
    exact List.Nodup.concat hnot hn

theorem Thins.nodup (h : Thins key step) (deltas : List α) {items : List α}
    (hitems : (items.map key).Nodup) : ((runSteps step deltas items).1.map key).Nodup :=
  runSteps_preserves (P := fun l => (l.map key).Nodup)
    (fun delta _ items hn => (h delta items).nodup hn) hitems

end

theorem combines_mergeComponent : Combines Component.identity Component.merge mergeComponent where
  nil _ := rfl
  same h rest := by rw [mergeComponent, if_pos (Component.sameIdentity_iff.2 h)]
  other h rest := by rw [mergeComponent, if_neg (mt Component.sameIdentity_iff.1 h)]
  key_combine _ := Component.identity_merge _ _

theorem combines_mergeHost : Combines Host.id (fun _ delta => delta) mergeHost where
  nil _ := rfl
  same h rest := by rw [mergeHost, if_pos h]
  other h rest := by rw [mergeHost, if_neg h]
  key_combine h := h.symm

theorem thins_removeComponent : Thins Component.identity removeComponent := by
  intro delta items
  induction items with
  | nil => exact List.Sublist.refl _
  | cons c rest ih =>
    rw [removeComponent]
    split
    next =>
      split
      next => simp
      next =>
        split
        next => exact List.Sublist.refl _
        next => exact List.sublist_cons_self _ _
    next => exact ih.cons_cons _

theorem thins_removeHost : Thins Host.id removeHost := fun _ _ => List.filter_sublist.map _

/-! ### Topologies without repetition -/

/-- No two components have the same name and service, and no two hosts the same id. -/
structure Unique (t : Topology) : Prop where
  components : (t.components.map Component.identity).Nodup
  hosts : (t.hosts.map Host.id).Nodup

instance (t : Topology) : Decidable t.Unique :=
  decidable_of_iff ((t.components.map Component.identity).Nodup ∧ (t.hosts.map Host.id).Nodup)
    ⟨fun h => ⟨h.1, h.2⟩, fun h => ⟨h.components, h.hosts⟩⟩

/-- No delta of any type, repeating itself or not, brings repetition about. -/
theorem Unique.update {t : Topology} (h : t.Unique) (delta : Topology) (type : EventType) :
    (t.update delta type).1.Unique := by
  have hmerge : (t.merge delta).1.Unique :=
    ⟨combines_mergeComponent.extends.nodup delta.components h.components,
      combines_mergeHost.extends.nodup delta.hosts h.hosts⟩
  have hremove : (t.remove delta).1.Unique :=
    ⟨thins_removeComponent.nodup delta.components h.components, thins_removeHost.nodup delta.hosts h.hosts⟩
  cases type with
  | create => exact hmerge
  | update => exact hmerge
  | delete => exact hremove

end Topology

/-- The topology of a view repeats nothing exactly if the view assigns no component twice to hosts and
lists no host twice. -/
theorem ClusterView.unique_topology_iff (v : ClusterView) :
    v.topology.Unique ↔
      ((v.assignments.filter (!·.hostNames.isEmpty)).map fun a => (a.component, a.service)).Nodup ∧
        (v.hosts.map Host.id).Nodup := by
  have hids : v.topology.components.map Component.identity =
      (v.assignments.filter (!·.hostNames.isEmpty)).map fun a => (a.component, a.service) :=
    List.map_map
  constructor
  · intro h
    exact ⟨hids ▸ h.components, h.hosts⟩
  · rintro ⟨hc, hh⟩
    exact ⟨hids ▸ hc, hh⟩

end FleetSync
