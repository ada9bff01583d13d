import FleetSync.Json.Reader
import FleetSync.Json.Writer
import FleetSync.Ordered.Map
import FleetSync.Ordered.Set

/-!
Types with a JSON form.

`Wire` pairs the writer of a type with its reader. Readers are strict about kinds (a number is
never taken from a string, nothing but an optional value from `null`), and lists, sets and maps are
read element by element. The law of a wire type is that a written value reads back.
-/
namespace FleetSync

/-- A type that is written to JSON and read from it. -/
class Wire (α : Type) where
  encode : α → Json
  decode : Json → Option α

namespace Wire

/-- The compact text of a value. -/
def toText {α : Type} [Wire α] (v : α) : String := (encode v).toText

/-- The value that a text holds. -/
def ofText? {α : Type} [Wire α] (s : String) : Option α := (Json.ofText? s).bind decode

instance : Wire Bool where
  encode := .bool
  decode
    | .bool b => some b
    | _ => none

instance : Wire String where
  encode := Json.ofString
  decode
    | .str s => s
    | _ => none

instance : Wire Int64 where
  encode i := Json.ofInt i.toInt
  decode j := j.int?.bind Decimal.narrow?

instance : Wire UInt64 where
  encode n := Json.ofNat n.toNat
  decode j := j.nat?.bind fun n => if n < UInt64.size then some (UInt64.ofNat n) else none

/-- Nothing is written as `null`. -/
instance {α : Type} [Wire α] : Wire (Option α) where
  encode
    | some v => encode v
    | none => .null
  decode
    | .null => some none
    | j => (decode j).map some

instance {α : Type} [Wire α] : Wire (List α) where
  encode l := .arr (l.map encode)
  decode
    | .arr items => items.mapM decode
    | _ => none

/-- A set is a list in ascending order; read, it may repeat members and stand in any order. -/
instance {κ : Type} [LT κ] [DecidableLT κ] [LinearKey κ] [Wire κ] : Wire (OrdSet κ) where
  encode s := encode s.toList
  decode j := (decode j).map OrdSet.ofList

/-- One member of a map. -/
def readEntry {α : Type} [Wire α] (m : Json.Literal × Json) : Option (String × α) := do
  return (← m.1, ← decode m.2)

/-- A map is an object in ascending order; read, the last of several values for a key counts, and
all of them have to be readable. -/
instance {α : Type} [Wire α] : Wire (OrdMap String α) where
  encode m := Json.object (m.toList.map fun e => (e.1, encode e.2))
  decode
    | .obj members =>
      (members.mapM readEntry).map OrdMap.ofList
    | _ => none

end Wire
end FleetSync
