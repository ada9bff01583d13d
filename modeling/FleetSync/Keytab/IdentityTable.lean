import FleetSync.Keytab.Entry
import FleetSync.Keytab.Rows
import FleetSync.Text.Blank

/-!
Identity tables: identity records in rows under a header.

Cells are trimmed of white space. Columns are matched by name: names that are no field of a record
are ignored, an empty cell of an optional column is no value. A row is malformed if it is not as wide
as the header, is not text, has no host name column, or if a field is named twice. A header that is
not text gives no names, and then cells are taken in the order of the fields.
-/
namespace FleetSync.IdentityTable

/-- A cell as text, if it is text. -/
def cellText? (cell : List UInt8) : Option String :=
  (String.fromUTF8? ⟨cell.toArray⟩).map fun s => String.ofList (Text.trim s.toList)

/-- The cells of a row as texts, if all of them are. -/
def rowText? (cells : List (List UInt8)) : Option (List String) := cells.mapM cellText?

/-- The value of an optional field in a row; an empty cell or a missing column is none. -/
def optionalCell (fields : List (String × String)) (name : String) : Option String :=
  (fields.lookup name).filter (· ≠ "")

/-- The record of the named cells of a row. -/
def recordOf? (fields : List (String × String)) : Option IdentityRecord := do
  let known := fields.filter (·.1 ∈ IdentityRecord.fieldNames)
  if ¬ (known.map (·.1)).Nodup then none
  let hostname ← known.lookup "hostname"
  return {
    hostname
    service := optionalCell known "service"
    component := optionalCell known "component"
    principal := optionalCell known "principal"
    path := optionalCell known "keytab_file_path"
    ownerName := optionalCell known "keytab_file_owner_name"
    ownerAccess := optionalCell known "keytab_file_owner_access"
    groupName := optionalCell known "keytab_file_group_name"
    groupAccess := optionalCell known "keytab_file_group_access" }

/-- The record of a row under a header of column names, or without names. -/
def readRow (columns : Option (List String)) (width : Nat) (row : List (List UInt8)) :
    Option IdentityRecord := do
  if row.length ≠ width then none
  let cells ← rowText? row
  recordOf? ((columns.getD IdentityRecord.fieldNames).zip cells)

/-- The records of a table, or for each malformed row the line on which its reading began. -/
def records (content : List UInt8) : List (Except Nat IdentityRecord) :=
  match RawRow.readAll content with
  | [] => []
  | header :: rows =>
    let columns := rowText? header.cells
    rows.map fun row =>
      match readRow columns header.cells.length row.cells with
      | some record => .ok record
      | none => .error row.line

end FleetSync.IdentityTable
