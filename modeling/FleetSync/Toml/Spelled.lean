import FleetSync.Toml.Basic

/-!
Moments that tables spell out.

A table whose first entry has the reserved name `$__toml_private_datetime` is the moment that the
string under this name spells out, and what else is in the table says nothing. Without such a string
the document is no document. Behind other entries the name is like any other.
-/
namespace FleetSync.Toml

/-- The name that makes a table a moment. -/
def momentName : String := "$__toml_private_datetime"

/-- The value under the reserved name, if it comes first. -/
def spelling? : List (String × Toml) → Option Toml
  | (name, v) :: _ => if name = momentName then some v else none
  | [] => none

/-- The moment that a value spells out. -/
def spelledMoment? : Toml → Option Moment
  | .text s => Moment.ofText? s
  | _ => none

mutual
/-- The value with the moments that tables spell out in it. -/
def withMoments : Toml → Option Toml
  | .list items => (itemsWithMoments items).map .list
  | .tables elements => (itemsWithMoments elements).map .tables
  | .table origin entries =>
    match spelling? entries with
    | some v => (spelledMoment? v).map .moment
    | none => (entriesWithMoments entries).map (.table origin)
  | t => some t

def itemsWithMoments : List Toml → Option (List Toml)
  | [] => some []
  | t :: rest => do return (← withMoments t) :: (← itemsWithMoments rest)

def entriesWithMoments : List (String × Toml) → Option (List (String × Toml))
  | [] => some []
  | (name, t) :: rest => do return (name, ← withMoments t) :: (← entriesWithMoments rest)
end

end FleetSync.Toml
