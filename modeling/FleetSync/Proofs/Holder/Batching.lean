import FleetSync.Proofs.Holder.Outcome
import FleetSync.Proofs.Topology.Merging

/-!
Deltas of one cluster, applied one by one or as one.

Creating and updating combine a delta with what is held for its scope (`Topology.combined`): with a topology,
or with nothing. Either way the deltas that follow it may as well be merged into it beforehand, provided that
it repeats nothing if there is a topology to merge it into (`Topology.afterAll_combined`). What a holder makes
of deltas for one scope is what they make of the topology (`Held.applyAll_insert`), so that events for one
scope may be gathered into the first of them (`deltas_batch`).
-/
namespace FleetSync

namespace Topology

/-- What a delta that creates or updates makes of what is held for its scope, if anything. -/
def combined (held : Option Topology) (delta : Topology) : Topology :=
  held.elim delta fun t => (t.merge delta).1

/-- The topology after some deltas, each of its own type. -/
def afterAll (t : Topology) (deltas : List (Topology × EventType)) : Topology :=
  deltas.foldl (fun t delta => (t.update delta.1 delta.2).1) t

variable {first : Topology} {rest : List (Topology × EventType)} (hrest : ∀ delta ∈ rest, delta.2 ≠ .delete)
include hrest

/-- Deltas that follow a first one without repetition may be gathered into it. -/
theorem afterAll_merge (hfirst : first.Unique) (a : Topology) :
    (a.merge first).1.afterAll rest = (a.merge (first.afterAll rest)).1 := by
  induction rest generalizing first with
  | nil => rfl
  | cons delta rest ih =>
    obtain ⟨c, type⟩ := delta
    obtain ⟨htype, hrest⟩ := List.forall_mem_cons.1 hrest
    have hgather : ((a.merge first).1.update c type).1 = (a.merge (first.update c type).1).1 := by
      rw [update_of_ne_delete _ c htype, update_of_ne_delete _ c htype, merge_merge hfirst]
    calc ((a.merge first).1.update c type).1.afterAll rest
        = (a.merge (first.update c type).1).1.afterAll rest := by rw [hgather]
      _ = (a.merge ((first.update c type).1.afterAll rest)).1 := ih hrest (hfirst.update c type)

theorem afterAll_combined {held : Option Topology} (hfirst : first.Unique ∨ held = none) :
    (combined held first).afterAll rest = combined held (first.afterAll rest) := by
  cases held with
  | none => rfl
  | some a => exact afterAll_merge hrest (hfirst.resolve_right nofun) a

end Topology

/-- What is left of a scope by a delta that creates or updates. -/
theorem ScopeOutcome.eq_combined {type : EventType} {delta : Topology} {before after : Option Topology}
    (h : ScopeOutcome type (some delta) before after) (htype : type ≠ .delete) :
    after = some (.combined before delta) := by
  cases h with
  | inserted => rfl
  | dropped _ _ hdelete => exact absurd hdelete htype
  | updated _ t => rw [Topology.update_of_ne_delete t delta htype]; rfl

namespace Held

/-- The state after some events, or the fault of the first one that fails. -/
def applyAll {α : Type} [Wire α] (s : Strategy α) (events : List (Event α)) (held : Held α) :
    Except Fault (Held α) :=
  events.foldlM (fun held e => (held.apply s e).map (·.1)) held

/-- A delta for one scope that creates or updates is always applied, and counts as a change. -/
theorem apply_single_topology (settings : TopologySettings) {type : EventType} (htype : type ≠ .delete)
    (held : Held Topology) (scope : ScopeKey) (delta : Topology) :
    held.apply (.topology settings) (.single scope delta type) =
      .ok (ofScopes (held.scopes.insert scope (.combined (held.scopes.get? scope) delta)), true) := by
  have htype' : (Event.single scope delta type).type ≠ .delete := htype
  obtain ⟨⟨next, changed⟩, happly⟩ := exists_apply_topology settings htype' held
  have hscopes : next.scopes = held.scopes.insert scope (.combined (held.scopes.get? scope) delta) := by
    refine OrdMap.ext_get? fun x => ?_
    have hout := ScopeOutcome.of_apply happly x
    rw [Event.get?_single] at hout
    rw [OrdMap.get?_insert]
    by_cases hx : x = scope
    · rw [if_pos hx] at hout
      rw [if_pos hx, hout.eq_combined htype, hx]
    · rw [if_neg hx] at hout
      rw [if_neg hx, hout.eq_of_none]
  obtain rfl : changed = true := changed_topology happly
  have hnext : next = ofScopes next.scopes := eq_of_apply happly
  rw [happly, ← hscopes, ← hnext]

/-- Deltas for a scope that is held do to its topology what they do to any. -/
theorem applyAll_insert (settings : TopologySettings) {deltas : List (Topology × EventType)}
    (hdeltas : ∀ delta ∈ deltas, delta.2 ≠ .delete) (scopes : OrdMap ScopeKey Topology) (scope : ScopeKey)
    (t : Topology) :
    (ofScopes (scopes.insert scope t)).applyAll (.topology settings)
        (deltas.map fun delta => .single scope delta.1 delta.2) =
      .ok (ofScopes (scopes.insert scope (t.afterAll deltas))) := by
  induction deltas generalizing t with
  | nil => rfl
  | cons delta deltas ih =>
    obtain ⟨c, type⟩ := delta
    obtain ⟨htype, hdeltas⟩ := List.forall_mem_cons.1 hdeltas
    have happly : (ofScopes (scopes.insert scope t)).apply (.topology settings) (.single scope c type) =
        .ok (ofScopes (scopes.insert scope (t.update c type).1), true) := by
      rw [apply_single_topology settings htype, Topology.update_of_ne_delete t c htype]
      simp [ofScopes, Topology.combined]
    rw [applyAll, List.map_cons, List.foldlM_cons, happly]
    exact ih hdeltas (t.update c type).1

end Held

/-- Deltas of one scope that create or update, of any number, may be gathered into the first of them and
applied as one.

Any topology comes to the same either way, in every field and in the order of its lists, if the first delta
repeats nothing. So does what is held, with its fingerprint; where nothing is held for the scope, the first
delta may repeat what it likes. -/
theorem deltas_batch {type : EventType} (htype : type ≠ .delete) (first : Topology)
    (rest : List (Topology × EventType)) (hrest : ∀ delta ∈ rest, delta.2 ≠ .delete) :
    (first.Unique → ∀ a : Topology,
      (a.update first type).1.afterAll rest = (a.update (first.afterAll rest) type).1) ∧
    ∀ (settings : TopologySettings) (held : Held Topology) (scope : ScopeKey),
      (first.Unique ∨ held.scopes.get? scope = none) →
      ∃ after,
        held.applyAll (.topology settings)
          (.single scope first type :: rest.map fun delta => .single scope delta.1 delta.2) = .ok after ∧
        held.apply (.topology settings) (.single scope (first.afterAll rest) type) = .ok (after, true) := by
  constructor
  · intro hfirst a
    rw [Topology.update_of_ne_delete a first htype, Topology.update_of_ne_delete a _ htype,
      Topology.afterAll_merge hrest hfirst]
  · intro settings held scope hfirst
    refine ⟨_, ?_, Held.apply_single_topology settings htype held scope (first.afterAll rest)⟩
    rw [Held.applyAll, List.foldlM_cons, Held.apply_single_topology settings htype,
      ← Topology.afterAll_combined hrest hfirst]
    exact Held.applyAll_insert settings hrest held.scopes scope _

/-- Where the first delta repeats a component, the next one is gathered into the wrong place: it would have
the last word on the component, and so has the repetition. -/
example :
    let named (name : String) : Component := { name := "C", service := "S", displayName := some name }
    let first : Topology := { components := [named "1", named "2"] }
    let second : Topology := { components := [named "3"] }
    let empty : Topology := {}
    ((empty.merge first).1.merge second).1 = second ∧
      (empty.merge (first.merge second).1).1 = { components := [named "2"] } := by
  decide

/-- A delta that repeats nothing, for a component and a host that are there and some that are not. -/
def ofOnce : Topology where
  components := [{ name := "A", service := "S", version := some "3", hostIds := .ofList [5] },
    { name := "D", service := "S", displayName := some "d" }]
  hosts := [{ id := 4, name := "d" }, { id := 1, name := "a''" }]

/-- Two more deltas, each of which names something twice. -/
def twiceMore : List (Topology × EventType) :=
  [(Topology.ofTwiceNamed, .create),
    ({ components := [{ name := "D", service := "S", version := some "" }]
       hosts := [{ id := 4, name := "d'" }, { id := 4, name := "d" }] }, .update)]

/-- The three deltas, for a cluster that is held and for one that is not. -/
theorem deltas_batch_ofOnce :
    let held := Held.ofScopes ((∅ : OrdMap ScopeKey Topology).insert "1" .ofTwo)
    let events (scope : ScopeKey) : List (Event Topology) :=
      .single scope ofOnce .update :: twiceMore.map fun delta => .single scope delta.1 delta.2
    let gathered (scope : ScopeKey) : Event Topology := .single scope (ofOnce.afterAll twiceMore) .update
    (Topology.ofTwo.update ofOnce .update).1.afterAll twiceMore =
        (Topology.ofTwo.update (ofOnce.afterAll twiceMore) .update).1 ∧
      ∀ scope ∈ ["1", "2"], ∃ after, held.applyAll (.topology {}) (events scope) = .ok after ∧
        held.apply (.topology {}) (gathered scope) = .ok (after, true) := by
  intro held events gathered
  have htype : EventType.update ≠ .delete := by decide
  have hrest : ∀ delta ∈ twiceMore, delta.2 ≠ .delete := by decide
  have hunique : ofOnce.Unique := by decide
  obtain ⟨hmerge, happly⟩ := deltas_batch htype ofOnce twiceMore hrest
  exact ⟨hmerge hunique .ofTwo, fun scope _ => happly {} held scope (.inl hunique)⟩

end FleetSync
