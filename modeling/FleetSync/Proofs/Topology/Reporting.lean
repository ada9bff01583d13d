import FleetSync.Fingerprint
import FleetSync.Proofs.Topology.Deleting

/-!
Reports of change.

Merging attributes, taking references away, and every step of a delta report a change exactly if they leave
something different (`Component.gains_iff`, `Component.loses_iff`, `Topology.Reports`). So where many steps
report no change there was none (`fst_runSteps_of_not_reported`). For the converse no step may take back what
an earlier one did (`NeverBack`). Deletions only ever take away, so what they leave never grows back
(`neverBack_of_order`), and where no key is named twice no step comes near what another one changed
(`Combines.neverBack`). A creation or an update that names a component twice may well change it and change it
back.
-/
namespace FleetSync

theorem OrdSet.union_ne_left_iff {κ : Type} [LT κ] [DecidableLT κ] [LinearKey κ] {s t : OrdSet κ} :
    s.union t ≠ s ↔ ∃ x ∈ t, x ∉ s := by
  rw [← not_iff_not, not_not]
  push Not
  constructor
  · intro h x hx
    rw [← h]
    exact mem_union.2 (.inr hx)
  · intro h
    refine ext_mem fun x => ?_
    rw [mem_union]
    exact or_iff_left_of_imp (h x)

theorem OrdSet.diff_ne_left_iff {κ : Type} [LT κ] [LinearKey κ] [DecidableEq κ] {s t : OrdSet κ} :
    s.diff t ≠ s ↔ ∃ x ∈ t, x ∈ s := by
  rw [← not_iff_not, not_not]
  push Not
  constructor
  · intro h x ht hs
    rw [← h] at hs
    exact (mem_diff.1 hs).2 ht
  · intro h
    refine ext_mem fun x => ?_
    rw [mem_diff]
    exact and_iff_left_of_imp fun hs ht => h x ht hs

theorem OrdMap.overlay_ne_left_iff {κ α : Type} [LT κ] [DecidableLT κ] [LinearKey κ] [DecidableEq κ]
    {base upper : OrdMap κ α} :
    base.overlay upper ≠ base ↔ ∃ e ∈ upper.toList, base.get? e.1 ≠ some e.2 := by
  rw [← not_iff_not, not_not]
  push Not
  constructor
  · rintro h ⟨k, v⟩ he
    rw [← h, get?_overlay, (get?_eq_some_iff upper k v).2 he]
    rfl
  · intro h
    refine ext_get? fun k => ?_
    rw [get?_overlay]
    cases hk : upper.get? k with
    | none => rfl
    | some v => exact (h (k, v) ((get?_eq_some_iff upper k v).1 hk)).symm

namespace Component

theorem addsMember_iff {κ : Type} [LT κ] [DecidableLT κ] [LinearKey κ] [DecidableEq κ]
    {own incoming : OrdSet κ} : addsMember own incoming = true ↔ own.union incoming ≠ own := by
  rw [OrdSet.union_ne_left_iff]
  simp [addsMember, OrdSet.mem_def]

theorem dropsMember_iff {κ : Type} [LT κ] [LinearKey κ] [DecidableEq κ] {own named : OrdSet κ} :
    dropsMember own named = true ↔ own.diff named ≠ own := by
  rw [OrdSet.diff_ne_left_iff]
  simp [dropsMember, OrdSet.mem_def]

theorem setsParam_iff {own incoming : OrdMap String String} :
    setsParam own incoming = true ↔ own.overlay incoming ≠ own := by
  rw [OrdMap.overlay_ne_left_iff]
  simp [setsParam]

/-- An attribute is replaced if another one is given. -/
theorem replaces_iff (given old : Option String) :
    (given.isSome && decide (given ≠ old)) = true ↔ given.or old ≠ old := by
  cases given <;> simp

/-- What is reported as a gain is one. -/
theorem gains_iff (c delta : Component) : c.gains delta = true ↔ c.merge delta ≠ c := by
  by_cases h : c.SameIdentity delta
  · have hfields : c.merge delta ≠ c ↔ delta.newVersion.or c.version ≠ c.version ∨
        delta.displayName.or c.displayName ≠ c.displayName ∨ c.hostIds.union delta.hostIds ≠ c.hostIds ∨
        c.hostNames.union delta.hostNames ≠ c.hostNames ∨
        c.publicHostNames.union delta.publicHostNames ≠ c.publicHostNames ∨
        c.levelParams.overlay delta.levelParams ≠ c.levelParams ∨
        c.commandParams.overlay delta.commandParams ≠ c.commandParams := by
      rw [merge_of_same h]
      obtain ⟨⟩ := c
      simp only [ne_eq, mk.injEq, true_and, not_and_or]
      exact or_left_comm
    rw [hfields, gains, decide_eq_true h, Bool.true_and]
    simp only [Bool.or_eq_true, replaces_iff, addsMember_iff, setsParam_iff, or_assoc]
  · simp [gains, merge, h]

/-- What is reported as a loss is one. -/
theorem loses_iff (c delta : Component) : c.loses delta = true ↔ c.removeReferences delta ≠ c := by
  by_cases h : c.SameIdentity delta
  · have hfields : c.removeReferences delta ≠ c ↔ c.hostIds.diff delta.hostIds ≠ c.hostIds ∨
        c.hostNames.diff delta.hostNames ≠ c.hostNames ∨
        c.publicHostNames.diff delta.publicHostNames ≠ c.publicHostNames := by
      rw [removeReferences, if_pos h]
      obtain ⟨⟩ := c
      simp only [ne_eq, mk.injEq, true_and, and_true, not_and_or]
    rw [hfields, loses, decide_eq_true h, Bool.true_and]
    simp only [Bool.or_eq_true, dropsMember_iff, or_assoc]
  · simp [loses, removeReferences, h]

/-- Components of another identity are left alone. -/
theorem ignored_of_ne {c delta : Component} (h : ¬ c.SameIdentity delta) :
    c.gains delta = false ∧ c.merge delta = c ∧ c.loses delta = false ∧ c.removeReferences delta = c := by
  simp [gains, merge, loses, removeReferences, h]

theorem PartOf.antisymm {c d : Component} (hcd : c.PartOf d) (hdc : d.PartOf c) : c = d := by
  obtain ⟨hname, hservice⟩ := sameIdentity_iff.2 hcd.identity
  have hids : c.hostIds = d.hostIds := OrdSet.ext_mem fun x => ⟨hcd.hostIds x, hdc.hostIds x⟩
  have hnames : c.hostNames = d.hostNames := OrdSet.ext_mem fun x => ⟨hcd.hostNames x, hdc.hostNames x⟩
  have hpublic : c.publicHostNames = d.publicHostNames :=
    OrdSet.ext_mem fun x => ⟨hcd.publicHostNames x, hdc.publicHostNames x⟩
  obtain ⟨-, hdisplay, hversion, hlevel, hcommand, -, -, -⟩ := hcd
  cases c
  cases d
  simp_all only

end Component

namespace Topology

/-! ### Steps in turn -/

/-- A step reports a change exactly if it leaves something different. -/
def Reports {α : Type} (step : α → List α → List α × Bool) : Prop :=
  ∀ delta items, (step delta items).2 = true ↔ (step delta items).1 ≠ items

/-- Whatever the items are, if they are the same after all steps they are the same after the first, and so on:
no step takes back what an earlier one did. -/
def NeverBack {α : Type} (step : α → List α → List α × Bool) : List α → Prop
  | [] => True
  | d :: deltas =>
    (∀ items, (runSteps step deltas (step d items).1).1 = items → (step d items).1 = items) ∧
      NeverBack step deltas

section
variable {α κ : Type} {step : α → List α → List α × Bool}

theorem foldl_report (deltas items : List α) (changed : Bool) :
    deltas.foldl (fun (items, changed) delta =>
      let (items, now) := step delta items
      (items, changed || now)) (items, changed) =
    ((runSteps step deltas items).1, changed || (runSteps step deltas items).2) := by
  induction deltas generalizing items changed with
  | nil => simp [runSteps]
  | cons d deltas ih =>
    rw [runSteps, List.foldl_cons, List.foldl_cons]
    simp only [ih, Bool.false_or, Bool.or_assoc]

/-- The report of some steps is that of the first one or of the others. -/
theorem snd_runSteps_cons (d : α) (deltas items : List α) :
    (runSteps step (d :: deltas) items).2 = ((step d items).2 || (runSteps step deltas (step d items).1).2) := by
  rw [runSteps, List.foldl_cons]
  exact congrArg Prod.snd (foldl_report deltas (step d items).1 (false || (step d items).2))

variable (hreports : Reports step)
include hreports

/-- Where no change is reported there was none. -/
theorem fst_runSteps_of_not_reported {deltas items : List α} (h : (runSteps step deltas items).2 = false) :
    (runSteps step deltas items).1 = items := by
  induction deltas generalizing items with
  | nil => rfl
  | cons d deltas ih =>
    rw [snd_runSteps_cons, Bool.or_eq_false_iff] at h
    obtain ⟨hd, hrest⟩ := h
    have hsame : (step d items).1 = items := by
      by_contra hne
      rw [(hreports d items).2 hne] at hd
      cases hd
    rw [fst_runSteps_cons, ih hrest, hsame]

/-- Where no step takes back what an earlier one did, a change that is reported is there in the end. -/
theorem runSteps_reports {deltas : List α} (hback : NeverBack step deltas) (items : List α) :
    (runSteps step deltas items).2 = true ↔ (runSteps step deltas items).1 ≠ items := by
  constructor
  · intro h heq
    induction deltas generalizing items with
    | nil => cases h
    | cons d deltas ih =>
      obtain ⟨hfirst, hback⟩ := hback
      rw [fst_runSteps_cons] at heq
      have hsame : (step d items).1 = items := hfirst items heq
      rw [snd_runSteps_cons, Bool.or_eq_true] at h
      rcases h with h | h
      · exact (hreports d items).1 h hsame
      · rw [hsame] at h heq
        exact ih hback items h heq
  · intro hne
    by_contra h
    exact hne (fst_runSteps_of_not_reported hreports (Bool.eq_false_of_not_eq_true h))

end

section
variable {α κ : Type} {step : α → List α → List α × Bool}

/-- Steps that only lead downwards in an order never lead back. -/
theorem neverBack_of_order {r : List α → List α → Prop} (hrefl : ∀ l, r l l)
    (htrans : ∀ l m n, r l m → r m n → r l n) (hanti : ∀ l m, r l m → r m l → l = m)
    (hdown : ∀ d items, r (step d items).1 items) (deltas : List α) : NeverBack step deltas := by
  induction deltas with
  | nil => trivial
  | cons d deltas ih =>
    refine ⟨fun items heq => ?_, ih⟩
    have hrest : r (runSteps step deltas (step d items).1).1 (step d items).1 :=
      runSteps_preserves (P := (r · (step d items).1))
        (fun e _ l hl => htrans _ _ _ (hdown e l) hl) (hrefl _)
    rw [heq] at hrest
    exact hanti _ _ (hdown d items) hrest

variable {key : α → κ} {combine : α → α → α}

/-- A step does something if it does something to the first item of its key. -/
theorem Combines.step_eq_of_find? [DecidableEq κ] (h : Combines key combine step) {d : α} {items : List α}
    (hfind : (step d items).1.find? (key · = key d) = items.find? (key · = key d)) :
    (step d items).1 = items := by
  induction items with
  | nil => simp [h.nil] at hfind
  | cons c rest ih =>
    by_cases hc : key c = key d
    · have hcombined : key (combine c d) = key d := (h.key_combine hc).trans hc
      rw [h.same hc] at hfind ⊢
      simp only [List.find?_cons, hcombined, hc, decide_true] at hfind
      rw [Option.some.inj hfind]
    · rw [h.other hc] at hfind ⊢
      rw [List.find?_cons_of_neg (by simpa using hc), List.find?_cons_of_neg (by simpa using hc)] at hfind
      rw [ih hfind]

/-- Steps for other keys do nothing to the first item of a key. -/
theorem Combines.find?_runSteps_of_not_mem [DecidableEq κ] (h : Combines key combine step) {k : κ}
    {deltas : List α} (hk : k ∉ deltas.map key) (items : List α) :
    (runSteps step deltas items).1.find? (key · = k) = items.find? (key · = k) := by
  refine runSteps_preserves (P := fun l => l.find? (key · = k) = items.find? (key · = k))
    (fun d hd l hl => ?_) rfl
  have hne : key d ≠ k := fun heq => hk (heq ▸ List.mem_map_of_mem hd)
  rw [h.find?_step, if_neg hne, hl]

/-- Where no key is named twice, no step comes near what another one changed. -/
theorem Combines.neverBack [DecidableEq κ] (h : Combines key combine step) {deltas : List α}
    (hdeltas : (deltas.map key).Nodup) : NeverBack step deltas := by
  induction deltas with
  | nil => trivial
  | cons d deltas ih =>
    obtain ⟨hnot, hdeltas⟩ := List.nodup_cons.1 hdeltas
    refine ⟨fun items heq => h.step_eq_of_find? ?_, ih hdeltas⟩
    rw [← h.find?_runSteps_of_not_mem hnot, heq]

end

/-! ### Components and hosts -/

theorem reports_mergeComponent : Reports mergeComponent := by
  intro delta items
  induction items with
  | nil => simp [mergeComponent]
  | cons c rest ih =>
    rw [mergeComponent]
    split
    next => simpa using Component.gains_iff c delta
    next => simpa using ih

theorem reports_mergeHost : Reports mergeHost := by
  intro delta items
  induction items with
  | nil => simp [mergeHost]
  | cons h rest ih =>
    rw [mergeHost]
    split
    next => simpa using ne_comm (a := h) (b := delta)
    next => simpa using ih

theorem reports_removeComponent : Reports removeComponent := by
  intro delta items
  induction items with
  | nil => simp [removeComponent]
  | cons c rest ih =>
    rw [removeComponent]
    split
    next =>
      split
      next => simpa using Component.loses_iff c delta
      next => split <;> simp
    next => simpa using ih

theorem reports_removeHost : Reports removeHost := by
  intro delta items
  rw [removeHost, ne_eq, List.filter_eq_self]
  simp

theorem length_le_of_sublist {l m : List Component} (h : List.SublistForall₂ Component.PartOf l m) :
    l.length ≤ m.length := by
  obtain ⟨k, hpart, hsub⟩ := List.sublistForall₂_iff.1 h
  exact hpart.length_eq ▸ hsub.length_le

/-- Where as many components are left, each one is left. -/
theorem forall₂_of_sublist {l m : List Component} (h : List.SublistForall₂ Component.PartOf l m)
    (hlength : m.length ≤ l.length) : List.Forall₂ Component.PartOf l m := by
  obtain ⟨k, hpart, hsub⟩ := List.sublistForall₂_iff.1 h
  rwa [hsub.eq_of_length_le (hpart.length_eq ▸ hlength)] at hpart

theorem forall₂_antisymm {l m : List Component} (hlm : List.Forall₂ Component.PartOf l m)
    (hml : List.Forall₂ Component.PartOf m l) : l = m := by
  induction hlm with
  | nil => rfl
  | cons hcd _ ih =>
    cases hml with
    | cons hdc hml => rw [hcd.antisymm hdc, ih hml]

/-- Two lists, each of which is what a deletion may leave of the other, are the same. -/
theorem sublist_antisymm {l m : List Component} (hlm : List.SublistForall₂ Component.PartOf l m)
    (hml : List.SublistForall₂ Component.PartOf m l) : l = m :=
  forall₂_antisymm (forall₂_of_sublist hlm (length_le_of_sublist hml))
    (forall₂_of_sublist hml (length_le_of_sublist hlm))

/-! ### Topologies -/

section
variable {onComponent : Component → List Component → List Component × Bool}
  {onHost : Host → List Host → List Host × Bool} {t delta : Topology}

theorem fst_change_of_not_reported (hcomponents : Reports onComponent) (hhosts : Reports onHost)
    (h : (change onComponent onHost t delta).2 = false) : (change onComponent onHost t delta).1 = t := by
  obtain ⟨hc, hh⟩ := Bool.or_eq_false_iff.1 h
  exact congrArg₂ mk (fst_runSteps_of_not_reported hcomponents hc) (fst_runSteps_of_not_reported hhosts hh)

theorem change_reports (hcomponents : Reports onComponent) (hhosts : Reports onHost)
    (hc : NeverBack onComponent delta.components) (hh : NeverBack onHost delta.hosts) :
    (change onComponent onHost t delta).2 = true ↔ (change onComponent onHost t delta).1 ≠ t := by
  rw [change, Bool.or_eq_true, runSteps_reports hcomponents hc, runSteps_reports hhosts hh]
  obtain ⟨⟩ := t
  simp only [ne_eq, mk.injEq, not_and_or]

end

theorem neverBack_removeComponent (deltas : List Component) : NeverBack removeComponent deltas :=
  neverBack_of_order refl IsTrans.trans (fun _ _ => sublist_antisymm) sublist_removeComponent deltas

theorem neverBack_removeHost (deltas : List Host) : NeverBack removeHost deltas :=
  neverBack_of_order List.Sublist.refl (fun _ _ _ => List.Sublist.trans)
    (fun _ _ => List.Sublist.antisymm) (fun _ _ => List.filter_sublist) deltas

/-- Where a delta reports no change, every field of the topology is as it was, and so is its fingerprint. Where
a deletion reports a change, something is different, and so it is where a creation or an update that repeats
nothing reports one. The same goes for merging one component into another and for taking references from one,
neither of which a component of another identity does. -/
theorem change_reported_iff (t delta : Topology) (type : EventType) :
    ((t.update delta type).2 = false →
      (t.update delta type).1 = t ∧ scopeFingerprint (t.update delta type).1 = scopeFingerprint t) ∧
    (type = .delete ∨ delta.Unique →
      ((t.update delta type).2 = true ↔ (t.update delta type).1 ≠ t)) ∧
    ∀ c d : Component,
      (c.gains d = true ↔ c.merge d ≠ c) ∧ (c.loses d = true ↔ c.removeReferences d ≠ c) ∧
      (¬ c.SameIdentity d →
        c.gains d = false ∧ c.merge d = c ∧ c.loses d = false ∧ c.removeReferences d = c) := by
  refine ⟨fun hfalse => ?_, fun h => ?_, fun c d => ⟨c.gains_iff d, c.loses_iff d, Component.ignored_of_ne⟩⟩
  · have hsame : (t.update delta type).1 = t := by
      cases type with
      | create | update => exact fst_change_of_not_reported reports_mergeComponent reports_mergeHost hfalse
      | delete => exact fst_change_of_not_reported reports_removeComponent reports_removeHost hfalse
    exact ⟨hsame, congrArg scopeFingerprint hsame⟩
  · have hmerge : delta.Unique → ((t.merge delta).2 = true ↔ (t.merge delta).1 ≠ t) := fun hunique =>
      change_reports reports_mergeComponent reports_mergeHost
        (combines_mergeComponent.neverBack hunique.components) (combines_mergeHost.neverBack hunique.hosts)
    cases type with
    | create | update => exact hmerge (h.resolve_left nofun)
    | delete =>
      exact change_reports reports_removeComponent reports_removeHost
        (neverBack_removeComponent delta.components) (neverBack_removeHost delta.hosts)

/-- An update that names a component twice changes it and changes it back. Both changes are reported. -/
example :
    let named (name : String) : Component := { name := "C", service := "S", displayName := some name }
    let t : Topology := { components := [named "1"] }
    let delta : Topology := { components := [named "2", named "1"] }
    t.update delta .update = (t, true) := by
  decide

/-- A deletion of some of a cluster is reported the first time, and so is a change of a host. What has been
deleted already is not, nor is an update to what is there. -/
theorem change_reported_iff_ofFour :
    let moved : Topology := { hosts := [{ id := 2, name := "b", rack := some "r" }] }
    let known : Topology := { components := [{ name := "A", service := "S", version := some "" }] }
    (ofFour.update ofSome .delete).1 ≠ ofFour ∧ (ofFour.update moved .create).1 ≠ ofFour ∧
      (someOffFour.update ofSome .delete).1 = someOffFour ∧ (ofFour.update known .update).1 = ofFour := by
  intro moved known
  have hmoved : moved.Unique := by decide
  refine ⟨?_, ?_, ?_, ?_⟩
  · exact ((change_reported_iff ofFour ofSome .delete).2.1 (.inl rfl)).1 (by decide +kernel)
  · exact ((change_reported_iff ofFour moved .create).2.1 (.inr hmoved)).1 (by decide +kernel)
  · exact ((change_reported_iff someOffFour ofSome .delete).1 (by decide +kernel)).1
  · exact ((change_reported_iff ofFour known .update).1 (by decide +kernel)).1

end Topology
end FleetSync
