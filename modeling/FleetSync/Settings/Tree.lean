import FleetSync.Double.Shortest
import FleetSync.Ordered.Entries
import FleetSync.Text.AsciiCase

/-!
Settings before they have types, as a tree.

A tree is laid over another one entry by entry: a table adds to the table that is there, and
anything else replaces what is there. A table over something that is no table replaces it as soon as
it has an entry. Single values are turned into the type that a field has, so that a number can be
given where text is wanted.
-/
namespace FleetSync

/-- One setting, or a table of settings by name. -/
inductive Setting where
  | blank
  | text (s : String)
  | whole (i : Int64)
  | real (x : Double)
  | flag (b : Bool)
  | list (items : List Setting)
  | table (entries : List (String × Setting))

namespace Setting

instance : Inhabited Setting := ⟨.blank⟩

/-- The entries of a table; anything else has none. -/
def entries : Setting → List (String × Setting)
  | .table es => es
  | _ => []

def items : Setting → List Setting
  | .list xs => xs
  | _ => []

def child? (s : Setting) (name : String) : Option Setting := s.entries.lookup name

/-- The table with one entry set; what is no table becomes one. -/
def withEntry (s : Setting) (name : String) (v : Setting) : Setting :=
  .table (Entries.set name v s.entries)

theorem child?_withEntry (s : Setting) (name : String) (v : Setting) (k : String) :
    (s.withEntry name v).child? k = if k = name then some v else s.child? k :=
  Entries.lookup_set name v s.entries k

mutual
/-- A setting laid over what is there, if anything is. -/
def overlay : Setting → Option Setting → Setting
  | .table entries, old => overlayEntries entries (old.getD (.table []))
  | new, _ => new

/-- The entries of a table laid over a setting, one after another. -/
def overlayEntries : List (String × Setting) → Setting → Setting
  | [], old => old
  | (name, new) :: rest, old => overlayEntries rest (old.withEntry name (overlay new (old.child? name)))
end

/-! ### Places -/

/-- A step to a place in the tree. -/
inductive Step where
  | name (s : String)
  | index (i : Int)
  deriving DecidableEq

/-- The position of an index in a list; a negative index counts from the end. -/
def position (i : Int) (size : Nat) : Nat := if i < 0 then (size + i).toNat else i.toNat

/-- The list with the item at a position set, blanks being added up to it. -/
def setItem (items : List Setting) (n : Nat) (v : Setting) : List Setting :=
  (items ++ List.replicate (n + 1 - items.length) blank).set n v

/-- The setting with a new one laid over a place in it. What stands in the way is replaced by the
table or the list that the place needs. An item of a list is replaced as a whole. -/
def put (new : Setting) : List Step → Option Setting → Setting
  | [], old => overlay new old
  | .name s :: path, old =>
    let here := old.getD blank
    here.withEntry s (put new path (here.child? s))
  | .index i :: path, old =>
    let xs := (old.getD blank).items
    let n := position i xs.length
    .list (setItem xs n (if path = [] then new else put new path xs[n]?))

/-! ### Values -/

/-- The text of a single value. -/
def asText? : Setting → Option String
  | .text s => some s
  | .whole i => some (Decimal.idText i)
  | .real x => some x.toText
  | .flag b => some (if b then "true" else "false")
  | _ => none

/-- The words for yes and for no. -/
def trueWords : List String := ["1", "true", "on", "yes"]
def falseWords : List String := ["0", "false", "off", "no"]

/-- Whether a single value means yes: a number does unless it is zero, a text if it is one of the
words in any case. -/
def asFlag? : Setting → Option Bool
  | .flag b => some b
  | .whole i => some (i ≠ 0)
  | .real x => some (!x.isZero)
  | .text s =>
    let word := Text.toAsciiLower s
    if word ∈ trueWords then some true else if word ∈ falseWords then some false else none
  | _ => none

/-- The values of the named fields. A list gives them in order and may hold more than is wanted. -/
def fields? (names : List String) : Setting → Option (List (String × Setting))
  | .table entries => some entries
  | .list items => some (names.zip items)
  | _ => none

end Setting
end FleetSync
