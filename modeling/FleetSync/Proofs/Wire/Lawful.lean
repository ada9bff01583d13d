import FleetSync.Json.Record
import FleetSync.Proofs.Json.Documents

/-!
The law of wire types, and how records come by it.

A wire type is lawful if every value reads back from the document it is written as; since documents
read back from their texts, values then read back from theirs (`Wire.ofText?_toText`). Lists, sets and
maps of lawful types are lawful because a list that is written item by item is read item by item, and
sets and maps are built again from the members that they list.

For a record two things have to fit. The names under which it writes its fields are different names
out of those it knows (`Json.Fields.Named`), so all that was written is found again. And a field that
was left out stands for the value that its absence means to the reader (`Json.Fields.elim_kept`,
`Json.Fields.elim_of`).
-/
namespace FleetSync

/-! ### Values -/

namespace Wire
variable {α β : Type}

/-- The law of a wire type: what is written reads back. -/
class Lawful (α : Type) [Wire α] : Prop where
  decode_encode : ∀ v : α, decode (encode v) = some v

@[simp] theorem decode_encode [Wire α] [Lawful α] (v : α) : decode (encode v) = some v :=
  Lawful.decode_encode v

instance : Lawful Bool := ⟨fun _ => rfl⟩

instance : Lawful String := ⟨fun _ => rfl⟩

instance : Lawful Int64 where
  decode_encode i := by
    show (Json.int? (Json.ofInt i.toInt)).bind Decimal.narrow? = some i
    simp [Decimal.narrow?_toInt]

instance : Lawful UInt64 where
  decode_encode n := by
    show (if n.toNat < UInt64.size then some (UInt64.ofNat n.toNat) else none) = some n
    rw [if_pos n.toNat_lt, UInt64.ofNat_toNat]

/-- No text is written as `null`, so one that is missing is told from one that is empty. -/
instance : Lawful (Option String) where
  decode_encode o := by cases o <;> rfl

/-- A list written item by item reads back if its items do. -/
theorem mapM_map {f : α → β} {g : β → Option α} (h : ∀ x, g (f x) = some x) (l : List α) :
    (l.map f).mapM g = some l := by
  induction l with
  | nil => rfl
  | cons x l ih =>
    rw [List.map_cons, List.mapM_cons, h x, ih]
    rfl

instance [Wire α] [Lawful α] : Lawful (List α) where
  decode_encode := mapM_map decode_encode

instance {κ : Type} [LT κ] [DecidableLT κ] [LinearKey κ] [Wire κ] [Lawful κ] :
    Lawful (OrdSet κ) where
  decode_encode s := by
    show (decode (encode s.toList)).map OrdSet.ofList = some s
    simp

instance [Wire α] [Lawful α] : Lawful (OrdMap String α) where
  decode_encode m := by
    have hread : ∀ e : String × α, readEntry (some e.1, encode e.2) = some e := by
      intro e
      simp [readEntry]
    have hall : ((m.toList.map fun e => (e.1, encode e.2)).map fun e => (some e.1, e.2)).mapM
        (readEntry (α := α)) = some m.toList := by
      rw [List.map_map]
      exact mapM_map hread m.toList
    show (List.mapM readEntry _).map OrdMap.ofList = some m
    rw [hall]
    simp

/-- A value reads back from its text. -/
theorem ofText?_toText [Wire α] [Lawful α] (v : α) : ofText? (toText v) = some v := by
  rw [ofText?, toText, Json.ofText?_toText]
  exact decode_encode v

/-- Different values have different texts. -/
theorem toText_inj [Wire α] [Lawful α] {v w : α} : toText v = toText w ↔ v = w := by
  constructor
  · intro h
    have hv := ofText?_toText v
    rw [h, ofText?_toText] at hv
    exact (Option.some.inj hv).symm
  · rintro rfl
    rfl

end Wire

/-! ### Records -/

namespace Json
open Wire
variable {α : Type} [Wire α]

@[simp] theorem lookup_field (n k : String) (v : α) :
    List.lookup k (field n v) = if k = n then some (encode v) else none := by
  simp [field, Entries.lookup_cons_eq]

/-- What is found under the name of a field that is left out under a condition. -/
def kept (omitted : Bool) (v : α) : Option Json := if omitted then none else some (encode v)

@[simp] theorem lookup_fieldUnless (omitted : Bool) (n k : String) (v : α) :
    List.lookup k (fieldUnless omitted n v) = if k = n then kept omitted v else none := by
  cases omitted <;> simp [fieldUnless, kept]

@[simp] theorem lookup_fieldOf (n k : String) (o : Option α) :
    List.lookup k (fieldOf n o) = if k = n then o.map encode else none := by
  cases o <;> simp [fieldOf]

namespace Fields

/-- The fields stand under different names, in the order of `names`, though some may be missing. -/
def Named (names : List String) (fields : Fields) : Prop := (fields.map (·.1)).Sublist names

theorem named_field (n : String) (v : α) : Named [n] (field n v) := List.Sublist.refl _

theorem named_fieldUnless (omitted : Bool) (n : String) (v : α) :
    Named [n] (fieldUnless omitted n v) := by
  cases omitted
  · exact List.Sublist.refl _
  · exact List.nil_sublist _

theorem named_fieldOf (n : String) (o : Option α) : Named [n] (fieldOf n o) := by
  cases o
  · exact List.nil_sublist _
  · exact List.Sublist.refl _

theorem Named.append {names names' : List String} {fields fields' : Fields}
    (h : Named names fields) (h' : Named names' fields') :
    Named (names ++ names') (fields ++ fields') := by
  rw [Named, List.map_append]
  exact List.Sublist.append h h'

@[simp] theorem required_eq (fields : Fields) (name : String) :
    fields.required name = (fields.lookup name).bind (decode (α := α)) := rfl

@[simp] theorem defaulted_eq (fields : Fields) (name : String) (absent : α) :
    fields.defaulted name absent = (fields.lookup name).elim (some absent) decode := by
  rw [defaulted]
  cases fields.lookup name <;> rfl

@[simp] theorem optional_eq (fields : Fields) (name : String) :
    fields.optional name = (fields.lookup name).elim (some none) (decode (α := Option α)) :=
  defaulted_eq fields name none

/-- A field that is left out is read as the value that its absence means. -/
@[simp] theorem elim_kept [Lawful α] {v absent : α} {omitted : Bool}
    (h : omitted = true → v = absent) :
    (kept omitted v).elim (some absent) decode = some v := by
  cases omitted with
  | false => exact decode_encode v
  | true =>
    rw [h rfl]
    rfl

/-- A text that is written only if there is one is read as given or as missing. -/
@[simp] theorem elim_of (o : Option String) :
    o.elim (some none) (decode (α := Option String) ∘ encode) = some o := by
  cases o <;> rfl

end Fields

/-- The fields of a written record are found again. -/
theorem fields?_object {names : List String} {fields : Fields} (h : fields.Named names)
    (hd : names.Nodup) : (Json.object fields).fields? names = some fields := by
  have hm : (fields.map fun m => ((some m.1 : Literal), m.2)).mapM
      (fun m => m.1.map fun name => (name, m.2)) = some fields := by
    refine mapM_map ?_ fields
    intro m
    rfl
  have hk : fields.filter (fun m => m.1 ∈ names) = fields := by
    refine List.filter_eq_self.2 fun m hmem => ?_
    simpa using h.subset (List.mem_map_of_mem hmem)
  have hn : (fields.map (·.1)).Nodup := h.nodup hd
  rw [object, fields?, hm]
  simp only [Option.bind_eq_bind, Option.bind_some, hk]
  rw [if_pos hn]

/-- A record is read out of the fields that it was written with. -/
theorem bind_fields?_object {β : Type} {names : List String} {fields : Fields}
    {read : Fields → Option β} (h : fields.Named names) (hd : names.Nodup) :
    ((Json.object fields).fields? names).bind read = read fields := by
  rw [fields?_object h hd]
  rfl

end Json
end FleetSync
