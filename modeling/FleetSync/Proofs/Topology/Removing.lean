import FleetSync.Proofs.Topology.AgentCopy

/-!
Deletions that come twice.

A step of a deletion is done with the first time: what it takes away is not there again. So a deletion that
comes twice does what it does once if its steps may change places (`runSteps_twice_of_pairwise`), which steps
for different components may, and steps for hosts in any case. Steps for one component may not. Where a
deletion first asks for a component without references, which still has some, and then takes these, only the
second delivery takes the component.
-/
namespace FleetSync

theorem Component.sameIdentity_removeReferences_iff {c d e : Component} :
    (c.removeReferences d).SameIdentity e ↔ c.SameIdentity e := by
  rw [sameIdentity_iff, identity_removeReferences, ← sameIdentity_iff]

theorem Component.removeReferences_twice (c delta : Component) :
    (c.removeReferences delta).removeReferences delta = c.removeReferences delta := by
  by_cases h : c.SameIdentity delta
  · have h' : (c.removeReferences delta).SameIdentity delta := sameIdentity_removeReferences_iff.2 h
    rw [removeReferences, if_pos h', removeReferences, if_pos h]
    simp only [OrdSet.diff_diff_self]
  · have hnone : c.removeReferences delta = c := if_neg h
    rw [hnone, hnone]

namespace Topology

/-! ### Steps in turn -/

section
variable {α : Type} {step : α → List α → List α × Bool}

/-- Steps that may change places with each other, and each of which does no more if it is done twice, do no
more if all of them are. -/
theorem runSteps_twice_of_pairwise {P : List α → Prop} {deltas : List α}
    (hcomm : deltas.Pairwise fun d e => ∀ items, (step e (step d items).1).1 = (step d (step e items).1).1)
    (hkeeps : ∀ d items, P items → P (step d items).1)
    (htwice : ∀ d items, P items → (step d (step d items).1).1 = (step d items).1) {items : List α}
    (hitems : P items) :
    (runSteps step deltas (runSteps step deltas items).1).1 = (runSteps step deltas items).1 := by
  induction deltas generalizing items with
  | nil => rfl
  | cons d deltas ih =>
    obtain ⟨hd, hdeltas⟩ := List.pairwise_cons.1 hcomm
    have hturn : ∀ l, (runSteps step deltas (step d l).1).1 = (step d (runSteps step deltas l).1).1 := fun l =>
      runSteps_comm (P := fun _ => True) (fun e he l _ => hd e he l) (fun _ _ _ _ => trivial) trivial
    have hnext : P (step d items).1 := hkeeps d items hitems
    calc (runSteps step (d :: deltas) (runSteps step (d :: deltas) items).1).1
        = (runSteps step deltas (step d (runSteps step deltas (step d items).1).1).1).1 := by
          rw [fst_runSteps_cons, fst_runSteps_cons]
      _ = (runSteps step deltas (runSteps step deltas (step d (step d items).1).1).1).1 := by
          rw [← hturn]
      _ = (runSteps step deltas (runSteps step deltas (step d items).1).1).1 := by
          rw [htwice d items hitems]
      _ = (runSteps step (d :: deltas) items).1 := by rw [ih hdeltas hnext, fst_runSteps_cons]

end

/-! ### Components and hosts -/

/-- Steps for different components may change places. -/
theorem removeComponent_comm {d e : Component} (hne : d.identity ≠ e.identity) (items : List Component) :
    (removeComponent e (removeComponent d items).1).1 = (removeComponent d (removeComponent e items).1).1 := by
  induction items with
  | nil => rfl
  | cons c rest ih =>
    by_cases hd : c.SameIdentity d
    · have he : ¬ c.SameIdentity e := fun he =>
        hne ((Component.sameIdentity_iff.1 hd).symm.trans (Component.sameIdentity_iff.1 he))
      have he' : ¬ (c.removeReferences d).SameIdentity e :=
        mt Component.sameIdentity_removeReferences_iff.1 he
      rw [removeComponent_cons_of_ne he, removeComponent_cons_of_same hd, removeComponent_cons_of_same hd,
        takes_cons_of_same hd, takes_cons_of_same hd]
      split
      next => rfl
      next => rw [removeComponent_cons_of_ne he']
    · by_cases he : c.SameIdentity e
      · have hd' : ¬ (c.removeReferences e).SameIdentity d :=
          mt Component.sameIdentity_removeReferences_iff.1 hd
        rw [removeComponent_cons_of_ne hd, removeComponent_cons_of_same he, removeComponent_cons_of_same he,
          takes_cons_of_same he, takes_cons_of_same he]
        split
        next => rfl
        next => rw [removeComponent_cons_of_ne hd']
      · rw [removeComponent_cons_of_ne hd, removeComponent_cons_of_ne he, removeComponent_cons_of_ne he,
          removeComponent_cons_of_ne hd, ih]

/-- There is nothing to take from a component that is not there. -/
theorem removeComponent_of_not_mem {delta : Component} {items : List Component}
    (h : delta.identity ∉ items.map Component.identity) : (removeComponent delta items).1 = items := by
  induction items with
  | nil => rfl
  | cons c rest ih =>
    rw [List.map_cons, List.mem_cons, not_or] at h
    have hne : ¬ c.SameIdentity delta := fun hc => h.1 (Component.sameIdentity_iff.1 hc).symm
    rw [removeComponent_cons_of_ne hne, ih h.2]

theorem removeComponent_twice (delta : Component) {items : List Component}
    (hitems : (items.map Component.identity).Nodup) :
    (removeComponent delta (removeComponent delta items).1).1 = (removeComponent delta items).1 := by
  induction items with
  | nil => rfl
  | cons c rest ih =>
    obtain ⟨hnot, hrest⟩ := List.nodup_cons.1 hitems
    by_cases h : c.SameIdentity delta
    · rw [removeComponent_cons_of_same h]
      split
      next => exact removeComponent_of_not_mem (Component.sameIdentity_iff.1 h ▸ hnot)
      next hkept =>
        -- what was not taken the first time is not taken the second time: references are only taken by a
        -- delta that has some, and such a delta takes no component
        have h' : (c.removeReferences delta).SameIdentity delta :=
          Component.sameIdentity_removeReferences_iff.2 h
        have hkept' : ¬ takes delta (c.removeReferences delta :: rest) = true := by
          rw [takes_cons_of_same h']
          rw [takes_cons_of_same h] at hkept
          cases hd : delta.hasReferences with
          | true => simp
          | false =>
            rw [hd] at hkept
            rwa [Component.removeReferences_of_none c hd]
        rw [removeComponent_cons_of_same h', if_neg hkept', Component.removeReferences_twice]
    · rw [removeComponent_cons_of_ne h, removeComponent_cons_of_ne h, ih hrest]

theorem removeHost_comm (d e : Host) (items : List Host) :
    (removeHost e (removeHost d items).1).1 = (removeHost d (removeHost e items).1).1 := by
  simp only [removeHost, List.filter_filter, Bool.and_comm]

theorem removeHost_twice (delta : Host) (items : List Host) :
    (removeHost delta (removeHost delta items).1).1 = (removeHost delta items).1 := by
  simp only [removeHost, List.filter_filter, Bool.and_self]

/-- A deletion that comes twice does what it does once, if neither it nor the topology repeats a component. -/
theorem remove_twice {t delta : Topology} (ht : (t.components.map Component.identity).Nodup)
    (hdelta : (delta.components.map Component.identity).Nodup) :
    ((t.remove delta).1.remove delta).1 = (t.remove delta).1 := by
  have hcomponents : delta.components.Pairwise fun d e => ∀ items,
      (removeComponent e (removeComponent d items).1).1 = (removeComponent d (removeComponent e items).1).1 :=
    (List.pairwise_map.1 hdelta).imp fun hne items => removeComponent_comm hne items
  have hhosts : delta.hosts.Pairwise fun d e => ∀ items,
      (removeHost e (removeHost d items).1).1 = (removeHost d (removeHost e items).1).1 :=
    List.pairwise_of_forall fun d e items => removeHost_comm d e items
  exact congrArg₂ Topology.mk
    (runSteps_twice_of_pairwise (P := fun l => (l.map Component.identity).Nodup) hcomponents
      (fun d items h => (thins_removeComponent d items).nodup h) (fun d _ h => removeComponent_twice d h) ht)
    (runSteps_twice_of_pairwise (P := fun _ => True) hhosts (fun _ _ _ => trivial)
      (fun d items _ => removeHost_twice d items) trivial)

/-- A deletion that names a component twice may take its references first and the component itself when it
comes again. -/
example :
    let t : Topology := { components := [{ name := "C", service := "S", hostIds := .ofList [1] }] }
    let delta : Topology := { components := [{ name := "C", service := "S" },
      { name := "C", service := "S", hostIds := .ofList [1] }] }
    (t.remove delta).1 = { components := [{ name := "C", service := "S" }] } ∧
      ((t.remove delta).1.remove delta).1 = {} := by
  decide

end Topology
end FleetSync
