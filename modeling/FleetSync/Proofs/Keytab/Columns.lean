import FleetSync.Keytab.Store
import FleetSync.Ordered.Entries
import FleetSync.Proofs.Keytab.Rows
import Mathlib.Data.List.OfFn
import Mathlib.Logic.Relation

/-!
The columns of an identity table.

What a row says is what stands under the names of the fields (`Says`), and reading it gives this record or
fails if it says none (`recordOf?_eq_some_iff`). A table is a list of columns, each with a name and a cell for
every row; a content shows it if its rows are read as the names and the cells in order (`Shows`), and every
table of trimmed texts is shown by some content (`exists_shows`).

So columns may change places, columns of other names may stand among them, and a column of an optional field may
as well be missing as be empty. Each such edit leaves what the rows say (`says_iff_of_edit`), hence any number of
edits does, and the tables before and after them read the same (`Files.columns_by_name`).
-/
namespace FleetSync

/-- What a reader of a data directory gets: position by position a record, or none where the reading
failed. -/
def SecretStore.readings (store : SecretStore) (directory : String) :
    Except Fault (List (Option IdentityRecord)) :=
  (store.records directory).map (·.map Except.toOption)

namespace IdentityTable

/-! ### What a row says -/

/-- The optional fields of a record under their names. -/
def optionals (r : IdentityRecord) : List (String × Option String) :=
  [("service", r.service), ("component", r.component), ("principal", r.principal),
    ("keytab_file_path", r.path), ("keytab_file_owner_name", r.ownerName),
    ("keytab_file_owner_access", r.ownerAccess), ("keytab_file_group_name", r.groupName),
    ("keytab_file_group_access", r.groupAccess)]

theorem mem_fieldNames_of_optional {r : IdentityRecord} {e : String × Option String} (he : e ∈ optionals r) :
    e.1 ∈ IdentityRecord.fieldNames := by
  have hnames : "hostname" :: (optionals r).map (·.1) = IdentityRecord.fieldNames := rfl
  rw [← hnames]
  exact List.mem_cons_of_mem _ (List.mem_map_of_mem he)

/-- The named cells of a row say a record: no field is named twice, the host name is what stands under its
name, and an optional field has the value that stands under its name, if it is not empty. -/
structure Says (cells : List (String × String)) (r : IdentityRecord) : Prop where
  distinct : ((cells.map (·.1)).filter (· ∈ IdentityRecord.fieldNames)).Nodup
  host : ("hostname", r.hostname) ∈ cells
  optional : ∀ e ∈ optionals r, ∀ v, e.2 = some v ↔ v ≠ "" ∧ (e.1, v) ∈ cells

section
variable {cells cells' : List (String × String)} {name v : String} {r : IdentityRecord}

/-- The cells that stand under the name of a field. -/
def knownCells (cells : List (String × String)) : List (String × String) :=
  cells.filter (·.1 ∈ IdentityRecord.fieldNames)

theorem map_knownCells (cells : List (String × String)) :
    (knownCells cells).map (·.1) = (cells.map (·.1)).filter (· ∈ IdentityRecord.fieldNames) := by
  rw [List.filter_map]
  rfl

theorem recordOf?_eq_some_iff_of_known :
    recordOf? cells = some r ↔ ((knownCells cells).map (·.1)).Nodup ∧
      (knownCells cells).lookup "hostname" = some r.hostname ∧
      ∀ e ∈ optionals r, optionalCell (knownCells cells) e.1 = e.2 := by
  rw [recordOf?, knownCells]
  generalize cells.filter (·.1 ∈ IdentityRecord.fieldNames) = known
  by_cases h : (known.map (·.1)).Nodup
  · cases r
    simp [h, optionals, Option.bind_eq_some_iff]
  · simp [h]

theorem optionalCell_eq_iff {value : Option String} :
    optionalCell cells name = value ↔ ∀ v, value = some v ↔ v ≠ "" ∧ cells.lookup name = some v := by
  rw [optionalCell, Option.ext_iff]
  refine forall_congr' fun v => ?_
  rw [Option.filter_eq_some_iff]
  simp [and_comm, Iff.comm]

/-- Where no field is named twice, what is looked up under the name of a field is what stands there. -/
theorem lookup_knownCells (h : ((knownCells cells).map (·.1)).Nodup) (hname : name ∈ IdentityRecord.fieldNames) :
    (knownCells cells).lookup name = some v ↔ (name, v) ∈ cells := by
  rw [Entries.lookup_eq_some_iff_of_nodup h, knownCells, List.mem_filter]
  simp [hname]

/-- Reading a row gives the record that its named cells say, and fails if they say none. -/
theorem recordOf?_eq_some_iff : recordOf? cells = some r ↔ Says cells r := by
  rw [recordOf?_eq_some_iff_of_known]
  constructor
  · rintro ⟨hdistinct, hhost, hoptional⟩
    refine ⟨map_knownCells cells ▸ hdistinct, (lookup_knownCells hdistinct (by decide)).1 hhost, ?_⟩
    intro e he v
    rw [optionalCell_eq_iff.1 (hoptional e he) v, lookup_knownCells hdistinct (mem_fieldNames_of_optional he)]
  · rintro ⟨hdistinct, hhost, hoptional⟩
    rw [← map_knownCells] at hdistinct
    refine ⟨hdistinct, (lookup_knownCells hdistinct (by decide)).2 hhost, fun e he => ?_⟩
    refine optionalCell_eq_iff.2 fun v => ?_
    rw [hoptional e he v, lookup_knownCells hdistinct (mem_fieldNames_of_optional he)]

section
variable
  (hdistinct : ((cells.map (·.1)).filter (· ∈ IdentityRecord.fieldNames)).Nodup ↔
    ((cells'.map (·.1)).filter (· ∈ IdentityRecord.fieldNames)).Nodup)
  (hmem : ∀ x ∈ IdentityRecord.fieldNames, ∀ v, x = "hostname" ∨ v ≠ "" → ((x, v) ∈ cells ↔ (x, v) ∈ cells'))
include hdistinct hmem

theorem Says.congr (h : Says cells r) : Says cells' r where
  distinct := hdistinct.1 h.distinct
  host := (hmem _ (by decide) _ (.inl rfl)).1 h.host
  optional e he v := by
    rw [h.optional e he v]
    exact and_congr_right fun hv => hmem _ (mem_fieldNames_of_optional he) v (.inr hv)

/-- Rows say the same if both or neither name a field twice, and if the same host names stand in them and the
same values other than empty ones. -/
theorem says_congr : Says cells r ↔ Says cells' r :=
  ⟨.congr hdistinct hmem, .congr hdistinct.symm fun x hx v hv => (hmem x hx v hv).symm⟩

end

theorem says_iff_of_perm (h : cells.Perm cells') : Says cells r ↔ Says cells' r :=
  says_congr ((h.map _).filter _).nodup_iff fun _ _ _ _ => h.mem_iff

/-- A cell that stands under the name of no field adds nothing to what a row says. -/
theorem says_cons_unknown_iff (hname : name ∉ IdentityRecord.fieldNames) :
    Says ((name, v) :: cells) r ↔ Says cells r := by
  refine says_congr (by simp [hname]) fun x hx w _ => ?_
  have hne : x ≠ name := fun h => hname (h ▸ hx)
  simp [hne]

/-- Nor does an empty cell of an optional field that is not there yet. -/
theorem says_cons_empty_iff (hname : name ≠ "hostname") (hmissing : name ∉ cells.map (·.1)) :
    Says ((name, "") :: cells) r ↔ Says cells r := by
  refine says_congr ?_ fun x _ w hw => ?_
  · rw [List.map_cons, List.filter_cons]
    split
    next => simp only [List.nodup_cons, List.mem_filter, hmissing, false_and, not_false_eq_true, true_and]
    next => exact Iff.rfl
  · have hne : (x, w) ≠ (name, "") := by
      rintro ⟨⟩
      simp [hname] at hw
    simp [hne]

end

/-! ### Tables -/

/-- A column of a table of `n` rows. -/
structure Column (n : Nat) where
  name : String
  cells : Fin n → String

variable {n : Nat} {columns columns' : List (Column n)}

/-- A row of a table, its cells under their names. -/
def namedCells (columns : List (Column n)) (i : Fin n) : List (String × String) :=
  columns.map fun c => (c.name, c.cells i)

/-- The content is read as the table: a header of the names and then the rows, all of them text and
as wide as the header. -/
def Shows (content : List UInt8) (columns : List (Column n)) : Prop :=
  (RawRow.readAll content).map (rowText? ·.cells) =
    some (columns.map (·.name)) :: List.ofFn fun i => some (columns.map (·.cells i))

instance (content : List UInt8) (columns : List (Column n)) : Decidable (Shows content columns) :=
  inferInstanceAs (Decidable (_ = _))

/-! ### Every table can be written -/

/-- A text with no white space at either end. -/
def IsTrimmed (s : String) : Prop := Text.trim s.toList = s.toList

/-- The names and the cells of a table are trimmed. -/
def AllTrimmed (columns : List (Column n)) : Prop :=
  ∀ c ∈ columns, IsTrimmed c.name ∧ ∀ i, IsTrimmed (c.cells i)

theorem cellText?_utf8 {s : String} (h : IsTrimmed s) : cellText? s.toUTF8.data.toList = some s := by
  have hutf8 : String.fromUTF8? s.toUTF8 = some s := by
    rw [String.fromUTF8?, String.toUTF8_eq_toByteArray, dif_pos s.isValidUTF8]
    rfl
  rw [cellText?, Array.toArray_toList, hutf8, Option.map_some, h, String.ofList_toList]

theorem rowText?_utf8 {texts : List String} (h : ∀ s ∈ texts, IsTrimmed s) :
    rowText? (texts.map (·.toUTF8.data.toList)) = some texts := by
  induction texts with
  | nil => rfl
  | cons s texts ih =>
    have hrest := ih fun t ht => h t (List.mem_cons_of_mem _ ht)
    rw [rowText?] at hrest
    rw [List.map_cons, rowText?, List.mapM_cons, cellText?_utf8 (h s List.mem_cons_self), hrest]
    rfl

/-- A table with a column and with trimmed texts is shown by what is written of its rows in quotes. -/
theorem exists_shows (hne : columns ≠ []) (htrim : AllTrimmed columns) : ∃ content, Shows content columns := by
  let texts := columns.map (·.name) :: List.ofFn fun i => columns.map (·.cells i)
  let rows : List (List (List UInt8)) := texts.map (·.map (·.toUTF8.data.toList))
  have hrows : ∀ cells ∈ rows, cells ≠ [] := by simp [rows, texts, hne]
  have htexts : ∀ row ∈ texts, ∀ s ∈ row, IsTrimmed s := by
    simp only [texts, List.forall_mem_cons, List.forall_mem_ofFn_iff, List.forall_mem_map]
    exact ⟨fun c hc => (htrim c hc).1, fun i c hc => (htrim c hc).2 i⟩
  refine ⟨rows.flatMap RawRow.writeRow, ?_⟩
  calc (RawRow.readAll (rows.flatMap RawRow.writeRow)).map (rowText? ·.cells)
      = ((RawRow.readAll (rows.flatMap RawRow.writeRow)).map (·.cells)).map rowText? := by
        rw [List.map_map]
        rfl
    _ = texts.map fun row => rowText? (row.map (·.toUTF8.data.toList)) := by
        rw [RawRow.readAll_writeRows hrows, List.map_map]
        rfl
    _ = texts.map some := List.map_congr_left fun row hrow => rowText?_utf8 (htexts row hrow)
    _ = _ := by simp [texts, List.map_ofFn, Function.comp_def]

/-! ### What is read of a table -/

theorem length_of_rowText? {cells : List (List UInt8)} {texts : List String}
    (h : rowText? cells = some texts) : texts.length = cells.length := by
  induction cells generalizing texts with
  | nil =>
    obtain rfl : [] = texts := by simpa [rowText?] using h
    rfl
  | cons cell cells ih =>
    simp only [rowText?, List.mapM_cons, Option.pure_def, Option.bind_eq_bind,
      Option.bind_eq_some_iff, Option.some.injEq] at h ih
    obtain ⟨text, -, rest, hrest, rfl⟩ := h
    rw [List.length_cons, List.length_cons, ih hrest]

theorem readRow_of_text {names texts : List String} {width : Nat} {row : List (List UInt8)}
    (h : rowText? row = some texts) (hwidth : texts.length = width) :
    readRow (some names) width row = recordOf? (names.zip texts) := by
  have hlength : row.length = width := (length_of_rowText? h).symm.trans hwidth
  simp [readRow, hlength, h]

/-- What is read of each row of a table is the record of its cells under their names. -/
theorem records_of_shows {content : List UInt8} (h : Shows content columns) :
    (records content).map Except.toOption = List.ofFn fun i => recordOf? (namedCells columns i) := by
  obtain ⟨header, rows, hread, hheader, hrows⟩ := List.map_eq_cons_iff.1 h
  have hrow : ∀ row ∈ rows, readRow (some (columns.map (·.name))) header.cells.length row.cells =
      (rowText? row.cells).bind fun texts => recordOf? ((columns.map (·.name)).zip texts) := by
    intro row hmem
    obtain ⟨i, hi⟩ := List.mem_ofFn.1 (hrows ▸ List.mem_map_of_mem hmem)
    have hwidth : (columns.map (·.cells i)).length = header.cells.length := by
      rw [← length_of_rowText? hheader, List.length_map, List.length_map]
    rw [readRow_of_text hi.symm hwidth, ← hi, Option.bind_some]
  calc (records content).map Except.toOption
      = rows.map fun row => readRow (some (columns.map (·.name))) header.cells.length row.cells := by
        simp only [records, hread, hheader, List.map_map]
        refine List.map_congr_left fun row _ => ?_
        rw [Function.comp_apply]
        cases readRow (some (columns.map (·.name))) header.cells.length row.cells <;> rfl
    _ = (rows.map (rowText? ·.cells)).map
          (·.bind fun texts => recordOf? ((columns.map (·.name)).zip texts)) := by
        rw [List.map_map]
        exact List.map_congr_left hrow
    _ = List.ofFn fun i => recordOf? (namedCells columns i) := by
        simp only [hrows, List.map_ofFn, Function.comp_def, Option.bind_some, List.zip_map']
        rfl

/-- So a data directory whose identity file shows a table is read row by row. -/
theorem readings_of_shows {f : Files} {s : SecretsSettings} {directory : String}
    {content : List UInt8} (hfile : f.find (s.identityPath directory) = .file content)
    (h : Shows content columns) :
    (f.secretStore s).readings directory =
      .ok (List.ofFn fun i => recordOf? (namedCells columns i)) := by
  have hmap : ∀ r : Except Nat IdentityRecord, (r.mapError fun line =>
      Fault.malformedRecord (s.identityPath directory) line).toOption = r.toOption := by
    intro r
    cases r <;> rfl
  simp only [SecretStore.readings, Files.secretStore, Files.identityRecords, hfile, Except.map,
    List.map_map, Function.comp_def, hmap]
  rw [← records_of_shows h]

/-- Edits of a table that do not change what its rows say. -/
inductive Edit : List (Column n) → List (Column n) → Prop
  /-- Columns change places, with their names. -/
  | permute {columns columns' : List (Column n)} (h : columns.Perm columns') : Edit columns columns'
  /-- A column that is no field is inserted, whatever stands in it. -/
  | insertUnknown {before after : List (Column n)} {c : Column n}
      (hname : c.name ∉ IdentityRecord.fieldNames) : Edit (before ++ after) (before ++ c :: after)
  /-- A missing column other than that of the host names is inserted with nothing in it. -/
  | insertEmpty {before after : List (Column n)} {c : Column n} (hname : c.name ≠ "hostname")
      (hmissing : c.name ∉ (before ++ after).map (·.name)) (hempty : ∀ i, c.cells i = "") :
      Edit (before ++ after) (before ++ c :: after)

/-- A column may be taken for the first one, wherever it stands. -/
theorem says_insert_iff {before after : List (Column n)} {c : Column n} {i : Fin n} {r : IdentityRecord} :
    Says (namedCells (before ++ c :: after) i) r ↔
      Says ((c.name, c.cells i) :: namedCells (before ++ after) i) r := by
  have hperm : (namedCells (before ++ c :: after) i).Perm (namedCells (c :: (before ++ after)) i) :=
    List.perm_middle.map _
  exact says_iff_of_perm hperm

/-- An edit of a table leaves what its rows say. -/
theorem says_iff_of_edit (h : Edit columns columns') (i : Fin n) (r : IdentityRecord) :
    Says (namedCells columns i) r ↔ Says (namedCells columns' i) r := by
  cases h with
  | permute h => exact says_iff_of_perm (h.map _)
  | insertUnknown hname => rw [says_insert_iff, says_cons_unknown_iff hname]
  | insertEmpty hname hmissing hempty =>
    rw [says_insert_iff, hempty i, says_cons_empty_iff hname]
    simpa [namedCells] using hmissing

/-- So do any number of edits, in either direction. -/
theorem says_iff_of_edits (h : Relation.EqvGen Edit columns columns') (i : Fin n) (r : IdentityRecord) :
    Says (namedCells columns i) r ↔ Says (namedCells columns' i) r := by
  induction h with
  | rel _ _ h => exact says_iff_of_edit h i r
  | refl => exact Iff.rfl
  | symm _ _ _ ih => exact ih.symm
  | trans _ _ _ _ _ ih ih' => exact ih.trans ih'

end IdentityTable

open IdentityTable in
/-- Tables that are edited into each other have the same readings, whatever content shows the one or the other:
position by position the record that the cells say by their names, or a failure if they say none. A content that
shows it there is for every table with a column and with trimmed texts. -/
theorem Files.columns_by_name {n : Nat} {columns columns' : List (Column n)}
    (hedits : Relation.EqvGen Edit columns columns') :
    ∃ readings : Fin n → Option IdentityRecord,
      (∀ i r, readings i = some r ↔ Says (namedCells columns i) r) ∧
      (∀ (f : Files) (s : SecretsSettings) (directory : String) (content : List UInt8),
        f.find (s.identityPath directory) = .file content →
        Shows content columns ∨ Shows content columns' →
        (f.secretStore s).readings directory = .ok (List.ofFn readings)) ∧
      ∀ table : List (Column n), table ≠ [] → AllTrimmed table → ∃ content, Shows content table := by
  refine ⟨fun i => recordOf? (namedCells columns i), fun i r => recordOf?_eq_some_iff, ?_, fun _ => exists_shows⟩
  intro f s directory content hfile hshows
  rcases hshows with hshows | hshows
  · exact readings_of_shows hfile hshows
  · have hrows : ∀ i, recordOf? (namedCells columns' i) = recordOf? (namedCells columns i) := fun i =>
      Option.ext fun r => by rw [recordOf?_eq_some_iff, recordOf?_eq_some_iff, says_iff_of_edits hedits]
    rw [readings_of_shows hfile hshows]
    simp only [hrows]

namespace IdentityTable

/-- A table of two columns. -/
def twoColumns : List (Column 2) :=
  [⟨"hostname", ["h1", "h2"].get⟩, ⟨"principal", ["p@R", ""].get⟩]

/-- The same columns in the other order, with a column of remarks and an empty one of services in between. -/
def fourColumns : List (Column 2) :=
  [⟨"principal", ["p@R", ""].get⟩, ⟨"remark", ["a,b", "hostname"].get⟩, ⟨"service", fun _ => ""⟩,
    ⟨"hostname", ["h1", "h2"].get⟩]

theorem twoColumns_edited : Relation.EqvGen Edit twoColumns fourColumns := by
  let principal : Column 2 := ⟨"principal", ["p@R", ""].get⟩
  let remark : Column 2 := ⟨"remark", ["a,b", "hostname"].get⟩
  let service : Column 2 := ⟨"service", fun _ => ""⟩
  let host : Column 2 := ⟨"hostname", ["h1", "h2"].get⟩
  have hswap : Edit [host, principal] [principal, host] := .permute (List.Perm.swap _ _ _)
  have hremark : Edit ([principal] ++ [host]) ([principal] ++ remark :: [host]) :=
    .insertUnknown (by decide)
  have hservice : Edit ([principal, remark] ++ [host]) ([principal, remark] ++ service :: [host]) :=
    .insertEmpty (by decide) (by decide) fun _ => rfl
  exact (Relation.EqvGen.rel _ _ hswap).trans _ _ _ ((Relation.EqvGen.rel _ _ hremark).trans _ _ _ (.rel _ _ hservice))

/-- Texts that show the one table and the other. -/
def twoColumnsText : String := "hostname,principal\nh1, p@R\nh2,\n"
def fourColumnsText : String := "principal, remark ,service,hostname\np@R,\"a,b\",,h1\n,hostname,,h2\n"

end IdentityTable

open IdentityTable in
/-- Both texts give two records, of which the second has no principal. -/
theorem Files.columns_by_name_edited :
    let holding (text : String) : Files := ({} : Files).writeFile "data/identity.dat" text.toUTF8.toList
    let readings := [some { hostname := "h1", principal := some "p@R" }, some { hostname := "h2" }]
    Relation.EqvGen Edit twoColumns fourColumns ∧
      ((holding twoColumnsText).secretStore {}).readings "data" = .ok readings ∧
      ((holding fourColumnsText).secretStore {}).readings "data" = .ok readings := by
  intro holding readings
  obtain ⟨found, -, hfound, -⟩ := columns_by_name twoColumns_edited
  have htwo : Shows twoColumnsText.toUTF8.toList twoColumns := by decide +kernel
  have hfour : Shows fourColumnsText.toUTF8.toList fourColumns := by decide +kernel
  have hread := hfound (holding twoColumnsText) {} "data" _ rfl (.inl htwo)
  have hread' := hfound (holding fourColumnsText) {} "data" _ rfl (.inr hfour)
  have hvalue : ((holding twoColumnsText).secretStore {}).readings "data" = .ok readings := by decide +kernel
  exact ⟨twoColumns_edited, hvalue, by rw [hread', ← hread, hvalue]⟩

end FleetSync
