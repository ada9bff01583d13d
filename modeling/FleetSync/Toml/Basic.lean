import FleetSync.Double.Basic
import FleetSync.Ordered.Entries
import FleetSync.Toml.Moment

/-!
TOML documents, and what may be written into them.

A document is a table of tables. How a table came to be decides what may still be added to it: a
table under a header is opened once, one that a header only passed through may still get a header
of its own, one made by a dotted key grows by dotted keys alone, and an inline table is complete.
No key is given a value twice.
-/
namespace FleetSync

/-- How a table came to be. -/
inductive Toml.Origin where
  /-- Under a header of its own, or the document itself. -/
  | header
  /-- On the way to the table of a header. -/
  | passed
  /-- On the way of a dotted key. -/
  | dotted
  /-- Between braces. -/
  | inline
  deriving DecidableEq

inductive Toml where
  | text (s : String)
  | whole (i : Int64)
  | real (x : Double)
  | flag (b : Bool)
  | moment (m : Toml.Moment)
  | list (items : List Toml)
  | table (origin : Toml.Origin) (entries : List (String × Toml))
  /-- Tables under repeated headers of one name. -/
  | tables (elements : List Toml)

namespace Toml

instance : Inhabited Toml := ⟨.flag false⟩

/-- A name, and the names of the tables around it. -/
structure Key where
  parents : List String
  name : String

def Key.path (k : Key) : List String := k.parents ++ [k.name]

/-- Changes the table at the end of a path. Tables that are missing on the way are made; the way may
lead through the last of repeated tables, but not into an inline one, and if it is that of a dotted
key, not through a table with a header either. -/
def alter (dotted : Bool) (f : Origin → List (String × Toml) → Option Toml) :
    List String → Toml → Option Toml
  | [], .table origin entries => f origin entries
  | name :: path, .table origin entries => do
    let inner ←
      match entries.lookup name with
      | none => alter dotted f path (.table (if dotted then .dotted else .passed) [])
      | some (.table .inline _) => none
      | some (.table inner es) =>
        if dotted ∧ inner = .header then none else alter dotted f path (.table inner es)
      | some (.tables elements) => do
        let last ← alter dotted f path (← elements.getLast?)
        some (.tables (elements.dropLast ++ [last]))
      | some _ => none
    return .table origin (Entries.set name inner entries)
  | _, _ => none

/-- Gives a key its value. -/
def define (k : Key) (v : Toml) : Toml → Option Toml :=
  alter true (fun origin entries =>
    if (origin = .dotted) ≠ (k.parents ≠ []) then none
    else if (entries.lookup k.name).isSome then none
    else some (.table origin (entries ++ [(k.name, v)]))) k.parents

/-- Opens the table of a header. One that was passed through moves behind the other entries. -/
def openTable (k : Key) : Toml → Option Toml :=
  alter false (fun origin entries =>
    match entries.lookup k.name with
    | none => some (.table origin (Entries.set k.name (.table .header []) entries))
    | some (.table .passed inner) =>
      some (.table origin (entries.filter (·.1 ≠ k.name) ++ [(k.name, .table .header inner)]))
    | some _ => none) k.parents

/-- Adds an empty table to the repeated ones of a name. -/
def openElement (k : Key) : Toml → Option Toml :=
  alter false (fun origin entries =>
    match entries.lookup k.name with
    | none => some (.table origin (Entries.set k.name (.tables [.table .header []]) entries))
    | some (.tables elements) =>
      some (.table origin (Entries.set k.name (.tables (elements ++ [.table .header []])) entries))
    | some _ => none) k.parents

/-- The inline table of some pairs. -/
def ofPairs (pairs : List (Key × Toml)) : Option Toml :=
  pairs.foldlM (fun t (k, v) => define k v t) (.table .inline [])

/-- A line of a document. -/
inductive Statement where
  | assign (key : Key) (value : Toml)
  | header (key : Key)
  | element (key : Key)

/-- A document, and the table that was opened last. -/
structure Draft where
  root : Toml := .table .header []
  here : List String := []

namespace Draft

/-- The draft after one more statement. -/
def add (d : Draft) : Statement → Option Draft
  | .assign k v => do
    let root ← alter false (fun origin entries => define k v (.table origin entries)) d.here d.root
    return { d with root }
  | .header k => do return ⟨← openTable k d.root, k.path⟩
  | .element k => do return ⟨← openElement k d.root, k.path⟩

end Draft

/-- The document of some statements. -/
def ofStatements (statements : List Statement) : Option Toml :=
  (statements.foldlM Draft.add {}).map Draft.root

end Toml
end FleetSync
