import FleetSync.Fingerprint
import FleetSync.Holder.Strategy

/-!
The held state of a holder: one snapshot for each scope, and the fingerprint of them all.

An event is merged scope by scope in ascending order of the keys. It is applied as a whole or not at
all: the first scope that cannot be merged decides the fault, and nothing has happened then. Since
a scope is merged with what was held for that scope alone, the order decides nothing else.
-/
namespace FleetSync

structure Held (α : Type) where
  scopes : OrdMap ScopeKey α := ∅
  fingerprint : Fingerprint := ""
  deriving DecidableEq

namespace Held
variable {α : Type}

/-- The state of the given scopes, with their fingerprint. Every value has a JSON form to take it of, so there is a
state for any scopes, and no operation that sets one fails at this point. -/
def ofScopes [Wire α] (scopes : OrdMap ScopeKey α) : Held α := ⟨scopes, FleetSync.fingerprint scopes⟩

/-- Carries a verdict on one scope out. -/
def settle (scopes : OrdMap ScopeKey α) (scope : ScopeKey) : Verdict α → OrdMap ScopeKey α
  | .unchanged => scopes
  | .changed v => if scopes.contains scope then scopes.insert scope v else scopes
  | .insert v => scopes.insert scope v
  | .remove => scopes.erase scope

/-- A verdict on one scope decides what is held for that scope and for no other. -/
theorem get?_settle (scopes : OrdMap ScopeKey α) (scope x : ScopeKey) (v : Verdict α) :
    (settle scopes scope v).get? x =
      if x = scope then v.resolve (scopes.get? scope) else scopes.get? x := by
  cases v with
  | unchanged =>
    by_cases hx : x = scope
    · rw [if_pos hx, hx]
      rfl
    · rw [if_neg hx]
      rfl
  | changed v =>
    by_cases hs : scopes.contains scope
    · obtain ⟨old, ho⟩ := Option.isSome_iff_exists.1 hs
      simp [settle, hs, Verdict.resolve, ho]
    · have hn : scopes.get? scope = none := by simpa [OrdMap.contains] using hs
      simp only [settle, hs, Verdict.resolve, hn]
      grind
  | insert v => simp [settle, Verdict.resolve]
  | remove => simp [settle, Verdict.resolve]

/-- Merges one payload into the scopes, and notes whether anything has changed so far. -/
def mergeScope (s : Strategy α) (type : EventType) (acc : OrdMap ScopeKey α × Bool)
    (entry : ScopeKey × α) : Except Fault (OrdMap ScopeKey α × Bool) := do
  let verdict ← s.merge entry.1 (acc.1.get? entry.1) entry.2 type
  return (settle acc.1 entry.1 verdict, acc.2 || verdict.isChange)

/-- Merges every payload of an event into the scopes. -/
def mergeScopes (s : Strategy α) (e : Event α) (scopes : OrdMap ScopeKey α) :
    Except Fault (OrdMap ScopeKey α × Bool) :=
  e.scopes.toList.foldlM (mergeScope s e.type) (scopes, false)

/-- The state after an event, and whether the event changed it. -/
def apply [Wire α] (s : Strategy α) (e : Event α) (h : Held α) : Except Fault (Held α × Bool) := do
  let (scopes, changed) ← mergeScopes s e h.scopes
  return (if changed then ofScopes scopes else h, changed)

/-- Takes freshly built scopes over if their fingerprint differs, and tells whether it did. -/
def swap [Wire α] (scopes : OrdMap ScopeKey α) (h : Held α) : Held α × Bool :=
  let next := ofScopes scopes
  if next.fingerprint = h.fingerprint then (h, false) else (next, true)

/-- The answer to a caller who has the state of a given fingerprint. -/
def updateIfChanged (h : Held α) (prior : Fingerprint) : Event α :=
  if h.fingerprint = prior then .noOp
  else { scopes := h.scopes, type := .create, fingerprint := some h.fingerprint }

/-- The answer to a caller who has the value of a given fingerprint for one scope. -/
def scopeAnswer [Wire α] (scope : ScopeKey) (value : α) (prior : Fingerprint) : Event α :=
  let current := scopeFingerprint value
  if current = prior then .noOp else (Event.single scope value .create).withFingerprint current

/-- Keeps a value fetched for a scope, unless one is held by now, and tells which one is held. -/
def storeFetched [Wire α] (scope : ScopeKey) (fetched : α) (h : Held α) : Held α × α :=
  match h.scopes.get? scope with
  | some value => (h, value)
  | none => (ofScopes (h.scopes.insert scope fetched), fetched)

end Held
end FleetSync
