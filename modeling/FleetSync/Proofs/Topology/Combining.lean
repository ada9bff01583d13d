import FleetSync.Proofs.Topology.Identities
import Mathlib.Data.List.Nodup

/-!
Deltas that are combined with what is there.

A step that combines a delta with the first item of its key (`Combines`) leaves all other items alone. After
any number of such steps the first item of a key is combined with the deltas of that key in their order
(`Combines.find?_runSteps`), and keys that are new stand behind the others in the order in which the deltas
bring them up (`Extends.map_key_runSteps`). Where combining is associative and repeats do nothing (`Band`),
deltas may as well be combined with each other first, as long as those that come first repeat no key
(`Combines.runSteps_runSteps`), and deltas that come twice do no more than deltas that come once
(`Combines.runSteps_twice`). Merging components is of this kind, and so is replacing hosts.
-/
namespace FleetSync

namespace Component

theorem merge_of_same {c delta : Component} (h : c.SameIdentity delta) :
    c.merge delta = { c with
      displayName := delta.displayName.or c.displayName
      version := delta.newVersion.or c.version
      hostIds := c.hostIds.union delta.hostIds
      hostNames := c.hostNames.union delta.hostNames
      publicHostNames := c.publicHostNames.union delta.publicHostNames
      levelParams := c.levelParams.overlay delta.levelParams
      commandParams := c.commandParams.overlay delta.commandParams } :=
  if_pos h

/-- A version that is not empty comes from the delta if it has one. -/
theorem newVersion_merge {c delta : Component} (h : c.SameIdentity delta) :
    (c.merge delta).newVersion = delta.newVersion.or c.newVersion := by
  rw [merge_of_same h]
  simp only [newVersion]
  cases delta.version with
  | none => rfl
  | some v => by_cases hv : v = "" <;> simp [Option.filter, hv]

theorem merge_assoc {c d e : Component} (hcd : c.SameIdentity d) (hde : d.SameIdentity e) :
    (c.merge d).merge e = c.merge (d.merge e) := by
  have hce : (c.merge d).SameIdentity e := by
    rw [sameIdentity_iff] at *
    rw [identity_merge, hcd, hde]
  have hcde : c.SameIdentity (d.merge e) := by
    rw [sameIdentity_iff] at *
    rw [identity_merge, hcd]
  rw [merge_of_same hce, merge_of_same hcde, newVersion_merge hde, merge_of_same hcd, merge_of_same hde]
  simp only [Option.or_assoc, OrdSet.union_assoc, OrdMap.overlay_assoc]

theorem merge_self (c : Component) : c.merge c = c := by
  have hversion : c.newVersion.or c.version = c.version := by
    rw [newVersion]
    cases c.version with
    | none => rfl
    | some v => by_cases hv : v = "" <;> simp [Option.filter, hv]
  rw [merge_of_same ⟨rfl, rfl⟩, hversion]
  simp

end Component

namespace Topology

/-- Within a key combining is associative, and an item combined with itself stays as it is. -/
structure Band {α κ : Type} (key : α → κ) (combine : α → α → α) : Prop where
  assoc : ∀ {c d e}, key c = key d → key d = key e →
    combine (combine c d) e = combine c (combine d e)
  self : ∀ c, combine c c = c

section
variable {α κ : Type} {key : α → κ} {combine : α → α → α} {step : α → List α → List α × Bool}

/-- Keys that are new follow the others, each where it comes up first. -/
theorem Extends.map_key_runSteps [DecidableEq κ] [BEq κ] [LawfulBEq κ] (h : Extends key step)
    (deltas items : List α) :
    (runSteps step deltas items).1.map key =
      items.map key ++ ((deltas.map key).filter (· ∉ items.map key)).eraseDups := by
  induction deltas generalizing items with
  | nil => exact (List.append_nil _).symm
  | cons d deltas ih =>
    rw [fst_runSteps_cons, ih, h, List.map_cons]
    by_cases hd : key d ∈ items.map key
    · rw [if_pos hd, List.filter_cons_of_neg (by simpa using hd)]
    · rw [if_neg hd, List.filter_cons_of_pos (by simpa using hd), List.eraseDups_cons, List.filter_filter,
        List.append_assoc, List.singleton_append]
      -- a key is new to the rest if it is new and not the one just added
      have hnew : ∀ k, decide (k ∉ items.map key ++ [key d]) = (!k == key d && decide (k ∉ items.map key)) := by
        intro k
        rw [Bool.eq_iff_iff]
        simp [and_comm]
      simp only [hnew]

theorem find?_key_of_mem [DecidableEq κ] {items : List α} (hitems : (items.map key).Nodup) {c : α}
    (hc : c ∈ items) : items.find? (key · = key c) = some c := by
  induction items with
  | nil => cases hc
  | cons x rest ih =>
    obtain ⟨hnot, hrest⟩ := List.nodup_cons.1 hitems
    rcases List.mem_cons.1 hc with rfl | hc
    · rw [List.find?_cons_of_pos (by simp)]
    · have hne : key x ≠ key c := fun heq => hnot (heq ▸ List.mem_map_of_mem hc)
      rw [List.find?_cons_of_neg (by simpa using hne), ih hrest hc]

namespace Combines
variable (h : Combines key combine step)
include h

/-! ### What one step does -/

/-- An item of another key stays where it is. -/
theorem getElem?_step {d c : α} {items : List α} {i : Nat} (hi : items[i]? = some c)
    (hne : key c ≠ key d) : (step d items).1[i]? = some c := by
  induction items generalizing i with
  | nil => cases hi
  | cons x rest ih =>
    by_cases hx : key x = key d
    · rw [h.same hx]
      cases i with
      | zero =>
        cases hi
        exact absurd hx hne
      | succ i => exact hi
    · rw [h.other hx]
      cases i with
      | zero => exact hi
      | succ i => exact ih hi

theorem find?_step [DecidableEq κ] (k : κ) (d : α) (items : List α) :
    (step d items).1.find? (key · = k) =
      if key d = k then some ((items.find? (key · = k)).elim d (combine · d))
      else items.find? (key · = k) := by
  induction items with
  | nil => by_cases hk : key d = k <;> simp [h.nil, hk]
  | cons c rest ih =>
    by_cases hc : key c = key d
    · rw [h.same hc]
      by_cases hk : key d = k <;> simp [h.key_combine hc, hc, hk]
    · rw [h.other hc]
      by_cases hk : key d = k
      · have hck : key c ≠ k := hk ▸ hc
        simpa [hck, hk] using ih
      · by_cases hck : key c = k
        · simp [hck, hk]
        · simpa [hck, hk] using ih

/-- The key of a delta is there after its step, and no key is lost. -/
theorem mem_map_key_step {d e : α} {items : List α} (hd : key d ∈ items.map key ∨ key d = key e) :
    key d ∈ (step e items).1.map key := by
  classical
  rw [h.extends]
  split
  next hmem => exact hd.elim id fun heq => heq ▸ hmem
  next => exact List.mem_append.2 (hd.imp id fun heq => List.mem_singleton.2 heq)

/-- Two steps may change places if their keys are different and one of them has an item already. Which of
two new items stands first would depend on the order. -/
theorem comm {d e : α} (hne : key d ≠ key e) {items : List α} (hd : key d ∈ items.map key) :
    (step d (step e items).1).1 = (step e (step d items).1).1 := by
  induction items with
  | nil => cases hd
  | cons c rest ih =>
    by_cases hcd : key c = key d
    · have hce : key c ≠ key e := hcd ▸ hne
      have hce' : key (combine c d) ≠ key e := h.key_combine hcd ▸ hce
      rw [h.other hce, h.same hcd, h.same hcd, h.other hce']
    · have hrest : key d ∈ rest.map key := by simpa [Ne.symm hcd] using hd
      by_cases hce : key c = key e
      · have hcd' : key (combine c e) ≠ key d := h.key_combine hce ▸ hcd
        rw [h.same hce, h.other hcd', h.other hcd, h.same hce]
      · rw [h.other hce, h.other hcd, h.other hcd, h.other hce, ih hrest]

/-! ### What many steps do -/

/-- An item that no delta names stays where it is. -/
theorem getElem?_runSteps {deltas items : List α} {c : α} {i : Nat} (hi : items[i]? = some c)
    (hnot : key c ∉ deltas.map key) : (runSteps step deltas items).1[i]? = some c := by
  refine runSteps_preserves (P := fun l => l[i]? = some c) (fun d hd l hl => ?_) hi
  exact h.getElem?_step hl fun heq => hnot (heq ▸ List.mem_map_of_mem hd)

/-- A step may come before or after steps for other keys if its own key has an item already. -/
theorem runSteps_comm_of_not_mem {d : α} {deltas : List α} (hnot : key d ∉ deltas.map key) {items : List α}
    (hd : key d ∈ items.map key) :
    (runSteps step deltas (step d items).1).1 = (step d (runSteps step deltas items).1).1 := by
  refine runSteps_comm (P := fun l => key d ∈ l.map key) (fun e he l hl => ?_)
    (fun _ _ _ hl => h.mem_map_key_step (.inl hl)) hd
  have hne : key d ≠ key e := fun heq => hnot (heq ▸ List.mem_map_of_mem he)
  exact (h.comm hne hl).symm

variable (hband : Band key combine)
include hband

/-- The first item of a key is combined with all deltas of the key, one after another. If there is none to
begin with, it is the first of the deltas. -/
theorem find?_runSteps [DecidableEq κ] (k : κ) (deltas items : List α) :
    (runSteps step deltas items).1.find? (key · = k) =
      ((items ++ deltas).find? (key · = k)).map fun base =>
        (deltas.filter (key · = k)).foldl combine base := by
  induction deltas generalizing items with
  | nil => simp [runSteps]
  | cons d deltas ih =>
    rw [fst_runSteps_cons, ih, List.find?_append, List.find?_append, h.find?_step]
    by_cases hk : key d = k
    · rw [if_pos hk, List.filter_cons_of_pos (by simpa using hk)]
      cases items.find? (key · = k) with
      | none => simp [hk, hband.self]
      | some c => simp
    · rw [if_neg hk, List.filter_cons_of_neg (by simpa using hk), List.find?_cons_of_neg (by simpa using hk)]

/-- So where no key is repeated each item is the first of its key, combined with all deltas of the key. -/
theorem eq_of_mem_runSteps [DecidableEq κ] {deltas items : List α} (hitems : (items.map key).Nodup)
    {c : α} (hc : c ∈ (runSteps step deltas items).1) :
    ∃ base, (items ++ deltas).find? (key · = key c) = some base ∧
      (deltas.filter (key · = key c)).foldl combine base = c := by
  have hfind := find?_key_of_mem (h.extends.nodup deltas hitems) hc
  rw [h.find?_runSteps hband] at hfind
  exact Option.map_eq_some_iff.1 hfind

/-- Two deltas of one key, one after the other, do what they do combined. -/
theorem step_step {d e : α} (hkey : key e = key d) (items : List α) :
    (step d (step e items).1).1 = (step (combine e d) items).1 := by
  have hcombined : key (combine e d) = key e := h.key_combine hkey
  induction items with
  | nil => rw [h.nil, h.same hkey, h.nil]
  | cons c rest ih =>
    by_cases hc : key c = key e
    · have hcd : key (combine c e) = key d := (h.key_combine hc).trans (hc.trans hkey)
      rw [h.same hc, h.same hcd, h.same (hc.trans hcombined.symm), hband.assoc hc hkey]
    · rw [h.other hc, h.other (hkey ▸ hc), h.other (hcombined ▸ hc), ih]

/-- A delta may be combined with deltas that repeat no key, and the outcome applied, or be applied after
them. -/
theorem runSteps_step {b : List α} (hb : (b.map key).Nodup) (d : α) (items : List α) :
    (runSteps step (step d b).1 items).1 = (step d (runSteps step b items).1).1 := by
  induction b generalizing items with
  | nil => rw [h.nil, fst_runSteps_cons]; rfl
  | cons e rest ih =>
    obtain ⟨hnot, hrest⟩ := List.nodup_cons.1 hb
    by_cases hed : key e = key d
    · have hmem : key d ∈ (step e items).1.map key := h.mem_map_key_step (.inr hed.symm)
      rw [h.same hed, fst_runSteps_cons, fst_runSteps_cons, ← h.step_step hband hed,
        h.runSteps_comm_of_not_mem (hed ▸ hnot) hmem]
    · rw [h.other hed, fst_runSteps_cons, fst_runSteps_cons, ih hrest]

/-- The same of many deltas. -/
theorem runSteps_runSteps {b : List α} (hb : (b.map key).Nodup) (c items : List α) :
    (runSteps step (runSteps step c b).1 items).1 = (runSteps step c (runSteps step b items).1).1 := by
  classical
  induction c generalizing b with
  | nil => rfl
  | cons d c ih =>
    have hnext : ((step d b).1.map key).Nodup := h.extends.nodup [d] hb
    rw [fst_runSteps_cons, fst_runSteps_cons, ih hnext, h.runSteps_step hband hb]

/-- An item that is there already does nothing if no key is repeated. -/
theorem step_of_mem {d : α} {items : List α} (hitems : (items.map key).Nodup) (hd : d ∈ items) :
    (step d items).1 = items := by
  induction items with
  | nil => cases hd
  | cons c rest ih =>
    obtain ⟨hnot, hrest⟩ := List.nodup_cons.1 hitems
    rcases List.mem_cons.1 hd with rfl | hd
    · rw [h.same rfl, hband.self]
    · have hne : key c ≠ key d := fun heq => hnot (heq ▸ List.mem_map_of_mem hd)
      rw [h.other hne, ih hrest hd]

theorem runSteps_self {b : List α} (hb : (b.map key).Nodup) : (runSteps step b b).1 = b :=
  runSteps_preserves (P := (· = b))
    (fun _ hd _ hitems => by rw [hitems, h.step_of_mem hband hb hd]) rfl

/-- Deltas that come twice do what they do once, whatever keys they repeat. -/
theorem runSteps_twice (deltas items : List α) :
    (runSteps step deltas (runSteps step deltas items).1).1 = (runSteps step deltas items).1 := by
  classical
  -- the deltas may be replaced by what they come to on their own, where no key is repeated
  let tidy := (runSteps step deltas []).1
  have hnil : (([] : List α).map key).Nodup := List.nodup_nil
  have htidy : (tidy.map key).Nodup := h.extends.nodup deltas hnil
  have hsame : ∀ l, (runSteps step tidy l).1 = (runSteps step deltas l).1 :=
    h.runSteps_runSteps hband hnil deltas
  calc (runSteps step deltas (runSteps step deltas items).1).1
      = (runSteps step tidy (runSteps step tidy items).1).1 := by rw [hsame, hsame]
    _ = (runSteps step (runSteps step tidy tidy).1 items).1 := (h.runSteps_runSteps hband htidy tidy items).symm
    _ = (runSteps step deltas items).1 := by rw [h.runSteps_self hband htidy, hsame]

end Combines
end

/-! ### Components and hosts -/

theorem band_merge : Band Component.identity Component.merge where
  assoc hcd hde := Component.merge_assoc (Component.sameIdentity_iff.2 hcd) (Component.sameIdentity_iff.2 hde)
  self := Component.merge_self

theorem band_replace : Band Host.id (fun _ delta => delta) := ⟨fun _ _ => rfl, fun _ => rfl⟩

/-! ### Topologies -/

theorem update_of_ne_delete (t delta : Topology) {type : EventType} (htype : type ≠ .delete) :
    (t.update delta type).1 = (t.merge delta).1 := by
  cases type with
  | create | update => rfl
  | delete => exact absurd rfl htype

/-- Of two deltas, the first of which repeats nothing, the second may be merged into the first. -/
theorem merge_merge {b : Topology} (hb : b.Unique) (a c : Topology) :
    ((a.merge b).1.merge c).1 = (a.merge (b.merge c).1).1 :=
  congrArg₂ Topology.mk
    (combines_mergeComponent.runSteps_runSteps band_merge hb.components c.components a.components).symm
    (combines_mergeHost.runSteps_runSteps band_replace hb.hosts c.hosts a.hosts).symm

/-- A delta that comes twice does what it does once, whatever it repeats. -/
theorem merge_twice (t delta : Topology) : ((t.merge delta).1.merge delta).1 = (t.merge delta).1 :=
  congrArg₂ Topology.mk (combines_mergeComponent.runSteps_twice band_merge delta.components t.components)
    (combines_mergeHost.runSteps_twice band_replace delta.hosts t.hosts)

theorem merge_self {t : Topology} (ht : t.Unique) : (t.merge t).1 = t :=
  congrArg₂ Topology.mk (combines_mergeComponent.runSteps_self band_merge ht.components)
    (combines_mergeHost.runSteps_self band_replace ht.hosts)

end Topology
end FleetSync
