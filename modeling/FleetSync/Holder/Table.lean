import FleetSync.Holder.Basic

/-!
Tables: sources whose snapshots are kept in a map that can be edited.

The known scopes are those of the map unless they are listed. An arrival is an event that reaches
the holder while a scope is being fetched, after its value has been looked up: it is applied once,
and if that fails so does the fetch.
-/
namespace FleetSync

structure SourceTable (α : Type) where
  values : OrdMap ScopeKey α := ∅
  listed : Option (List ScopeKey) := none
  arrivals : OrdMap ScopeKey (Event α) := ∅

namespace SourceTable
variable {ω α : Type}

def scopes (t : SourceTable α) : List ScopeKey := t.listed.getD t.values.keys

/-- The snapshot of a scope. -/
def value (t : SourceTable α) (scope : ScopeKey) : Except Fault α :=
  match t.values.get? scope with
  | some v => .ok v
  | none => .error (.scopeUnavailable scope "not in source")

/-- A table as a source. -/
def source [Wire α] (strategy : Strategy α) (get : ω → SourceTable α)
    (set : SourceTable α → ω → ω) : Source ω α where
  scopes := fun site => .ok (get site.world).scopes site
  fetch scope := fun site =>
    let table := get site.world
    let found := Op.ofExcept (table.value scope)
    match table.arrivals.get? scope with
    | none => found site
    | some e =>
      let rest := { table with arrivals := table.arrivals.erase scope }
      let step : Op (Site ω α) α := do
        let _ ← strategy.applyAt e
        found
      step { site with world := set rest site.world }

end SourceTable
end FleetSync
