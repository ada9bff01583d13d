import FleetSync.Json.Wire

/-!
Records with named fields.

A record is written as an object that leaves some fields out, and read from an object or from an
array of its fields in order. In an object unknown names are ignored and a repeated known name is
an error; an array may end early but holds nothing beyond the last field. Each field says for itself
what its absence means.
-/
namespace FleetSync.Json

/-- The values that a document gives to the known fields. -/
abbrev Fields := List (String × Json)

/-- The known fields of a document, by name or by position. -/
def fields? (names : List String) : Json → Option Fields
  | .obj members => do
    let named ← members.mapM fun m => m.1.map fun name => (name, m.2)
    let known := named.filter fun m => m.1 ∈ names
    if (known.map (·.1)).Nodup then some known else none
  | .arr items => if items.length ≤ names.length then some (names.zip items) else none
  | _ => none

namespace Fields

/-- A field that has to be there. -/
def required {α : Type} [Wire α] (fields : Fields) (name : String) : Option α :=
  (fields.lookup name).bind Wire.decode

/-- A field whose absence means a given value. -/
def defaulted {α : Type} [Wire α] (fields : Fields) (name : String) (absent : α) : Option α :=
  match fields.lookup name with
  | some j => Wire.decode j
  | none => some absent

/-- A field whose absence means that there is no value, as does `null`. -/
def optional {α : Type} [Wire α] (fields : Fields) (name : String) : Option (Option α) :=
  fields.defaulted name none

end Fields

/-- A field that is always written. -/
def field {α : Type} [Wire α] (name : String) (v : α) : Fields := [(name, Wire.encode v)]

/-- A field that is left out under a condition. -/
def fieldUnless {α : Type} [Wire α] (omitted : Bool) (name : String) (v : α) : Fields :=
  if omitted then [] else field name v

/-- A field that is left out when there is no value. -/
def fieldOf {α : Type} [Wire α] (name : String) : Option α → Fields
  | some v => field name v
  | none => []

end FleetSync.Json
