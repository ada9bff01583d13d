import FleetSync.Proofs.Traversal
import FleetSync.Publisher.Basic

/-!
Keytab entries: which ones a command is given, and when they cannot be.

The records of an identity table are gone through in their order. A record is wanted if it is one of
the host and, where keytabs are handed out, names a keytab that is there (`SecretStore.isWanted`). The
entries are one for each wanted record (`SecretStore.lists_of_entries`), or there are none at all
because of the first record that spoils them (`SecretStore.entries_eq_error_iff`). Giving them out
reads files and counts, and does nothing else to the desk (`Publisher.enrich_yields`); where it fails
it does not count either (`Publisher.injectSecret_error`).
-/
namespace FleetSync

variable {ω : Type}

namespace Desk

/-- A desk apart from what was read from files. -/
def unread (d : Desk ω) : Desk ω := { d with opened := [], tried := [] }

theorem eq_of_unread {d d' : Desk ω} (h : d'.unread = d.unread) :
    d' = { d with opened := d'.opened, tried := d'.tried } := by
  cases d
  cases d'
  cases h
  rfl

/-- What has gone out, and the state of the transport. -/
def outward (d : Desk ω) : List Envelope × ω := (d.sent, d.world)

theorem outward_of_unread {d d' : Desk ω} (h : d'.unread = d.unread) : d'.outward = d.outward :=
  show outward d'.unread = outward d.unread by rw [h]

end Desk

namespace KeytabAction

/-- An action is asked for by its name, in any case of its letters. -/
theorem ofCustomCommand?_eq_some_iff {action : KeytabAction} {word : String} :
    ofCustomCommand? word = some action ↔ Text.sameIgnoringCase word action.name := by
  have hne : Text.toAsciiLower set.name ≠ Text.toAsciiLower remove.name := by decide
  rw [ofCustomCommand?]
  by_cases hs : Text.toAsciiLower word = Text.toAsciiLower set.name
  · cases action <;> simp [Text.sameIgnoringCase, hs, hne]
  · cases action <;> simp [Text.sameIgnoringCase, hs]

end KeytabAction

namespace SecretStore

/-- The entry that a record of the host calls for, if any. -/
def entryOf (store : SecretStore) (directory : String) (action : KeytabAction)
    (r : IdentityRecord) : Except Fault (Option KeytabEntry) :=
  match action, r.path with
  | .remove, _ => .ok (some (.forRemoval r))
  | .set, none => .ok none
  | .set, some path =>
    (store.keytab (keytabLocation directory r.hostname path)).map fun content =>
      content.map fun bytes => .withContent r (Base64.encodeText bytes)

/-- The entry that the next record calls for, if it is one of the host. -/
def entryFor (store : SecretStore) (directory : String) (action : KeytabAction) (host : String)
    (next : Except Fault IdentityRecord) : Except Fault (Option KeytabEntry) := do
  let record ← next
  if Text.sameIgnoringCase record.hostname host then store.entryOf directory action record
  else .ok none

/-- The entries that records call for. -/
def entriesAmong (store : SecretStore) (directory : String) (action : KeytabAction) (host : String)
    (records : List (Except Fault IdentityRecord)) : Except Fault (List KeytabEntry) :=
  (records.mapM (store.entryFor directory action host)).map (List.filterMap id)

/-- The entries that the identity table of a data directory calls for. -/
def entries (store : SecretStore) (directory : String) (action : KeytabAction) (host : String) :
    Except Fault (List KeytabEntry) :=
  store.records directory >>= store.entriesAmong directory action host

/-! ### What a record comes to -/

/-- Whether a record calls for an entry: any does when keytabs are removed, one with a keytab that can
be read does when they are handed out. -/
def hasEntry (store : SecretStore) (directory : String) (action : KeytabAction)
    (r : IdentityRecord) : Bool :=
  match action, r.path with
  | .remove, _ => true
  | .set, none => false
  | .set, some path =>
    match store.keytab (keytabLocation directory r.hostname path) with
    | .ok (some _) => true
    | _ => false

/-- Whether a record is one of the host and calls for an entry. -/
def isWanted (store : SecretStore) (directory : String) (action : KeytabAction) (host : String)
    (r : IdentityRecord) : Bool :=
  Text.sameIgnoringCase r.hostname host && store.hasEntry directory action r

/-- What the entry for a record has to say. For removal it says whose keytab it is; for installation
it repeats the record, with a text that reads as the bytes of the keytab file. -/
def Tells (store : SecretStore) (directory : String) (action : KeytabAction) (r : IdentityRecord)
    (e : KeytabEntry) : Prop :=
  match action with
  | .remove => e = {
      hostname := r.hostname
      service := r.service
      component := r.component
      principal := r.principal
      path := r.path }
  | .set => e.toIdentityRecord = r ∧ ∃ path bytes text, r.path = some path ∧
      store.keytab (keytabLocation directory r.hostname path) = .ok (some bytes) ∧
      e.contentBase64 = some text ∧ Base64.decode? text.toList = some bytes

/-- The keytab of a record is asked for, and reading it fails. -/
def Unreadable (store : SecretStore) (directory : String) (action : KeytabAction)
    (r : IdentityRecord) (f : Fault) : Prop :=
  action = .set ∧
    ∃ path, r.path = some path ∧ store.keytab (keytabLocation directory r.hostname path) = .error f

/-- Why there are no entries, as far as one record is concerned. -/
inductive Spoils (store : SecretStore) (directory : String) (action : KeytabAction)
    (host : String) : Except Fault IdentityRecord → Fault → Prop
  | malformed {f : Fault} : Spoils store directory action host (.error f) f
  | unreadable {r : IdentityRecord} {f : Fault} (hh : Text.sameIgnoringCase r.hostname host)
      (hr : store.Unreadable directory action r f) : Spoils store directory action host (.ok r) f

variable {store : SecretStore} {directory host : String} {action : KeytabAction} {f : Fault}

/-- A record is wanted if it is one of the host and, where keytabs are handed out, it has a path and
there is a keytab file for it that can be read. -/
theorem isWanted_iff {r : IdentityRecord} :
    store.isWanted directory action host r ↔
      Text.sameIgnoringCase r.hostname host ∧
        (action = .set → ∃ path bytes, r.path = some path ∧
          store.keytab (keytabLocation directory r.hostname path) = .ok (some bytes)) := by
  rw [isWanted, Bool.and_eq_true, hasEntry.eq_def]
  refine and_congr_right fun _ => ?_
  cases action with
  | remove => exact iff_of_true rfl nofun
  | set =>
    cases hp : r.path with
    | none => simp
    | some path =>
      cases hk : store.keytab (keytabLocation directory r.hostname path) with
      | error f => simp [hk]
      | ok content => cases content <;> simp [hk]

theorem entryOf_eq_error_iff {r : IdentityRecord} :
    store.entryOf directory action r = .error f ↔ store.Unreadable directory action r f := by
  rw [entryOf.eq_def]
  constructor
  · intro h
    split at h
    next => cases h
    next => cases h
    next path hp => exact ⟨rfl, path, hp, map_eq_error_iff.1 h⟩
  · rintro ⟨rfl, path, hp, hk⟩
    simp only [hp]
    exact map_eq_error_iff.2 hk

/-- A record whose keytab is not the trouble has its entry or has none. -/
theorem entryOf_eq_ok {r : IdentityRecord} {entry : Option KeytabEntry}
    (h : store.entryOf directory action r = .ok entry) :
    (entry = none ∧ store.hasEntry directory action r = false) ∨
      ∃ e, entry = some e ∧ store.hasEntry directory action r = true ∧
        store.Tells directory action r e := by
  rw [entryOf.eq_def] at h
  rw [hasEntry.eq_def]
  split at h
  next =>
    cases h
    exact .inr ⟨_, rfl, rfl, rfl⟩
  next =>
    cases h
    exact .inl ⟨rfl, rfl⟩
  next path hp =>
    obtain ⟨content, hk, rfl⟩ := map_eq_ok_iff.1 h
    simp only [hk]
    cases content with
    | none => exact .inl ⟨rfl, rfl⟩
    | some bytes =>
      have hread : Base64.decode? (Base64.encodeText bytes).toList = some bytes := by simp
      exact .inr ⟨_, rfl, rfl, rfl, path, bytes, _, hp, hk, rfl, hread⟩

theorem entryFor_eq_error_iff {next : Except Fault IdentityRecord} :
    store.entryFor directory action host next = .error f ↔
      Spoils store directory action host next f := by
  constructor
  · intro h
    cases next with
    | error g =>
      cases h
      exact .malformed
    | ok r =>
      by_cases hh : Text.sameIgnoringCase r.hostname host
      · exact .unreadable hh (entryOf_eq_error_iff.1 ((if_pos hh).symm.trans h))
      · exact nomatch (if_neg hh).symm.trans h
  · rintro (_ | ⟨hh, hr⟩)
    · rfl
    · exact (if_pos hh).trans (entryOf_eq_error_iff.2 hr)

/-- The next record has an entry if it is wanted, and is passed over if it is not. -/
theorem entryFor_eq_ok {next : Except Fault IdentityRecord} {entry : Option KeytabEntry}
    (h : store.entryFor directory action host next = .ok entry) :
    ∃ r, next = .ok r ∧
      ((entry = none ∧ store.isWanted directory action host r = false) ∨
        ∃ e, entry = some e ∧ store.isWanted directory action host r = true ∧
          store.Tells directory action r e) := by
  cases next with
  | error g => cases h
  | ok r =>
    refine ⟨r, rfl, ?_⟩
    by_cases hh : Text.sameIgnoringCase r.hostname host
    · rw [isWanted, hh, Bool.true_and]
      exact entryOf_eq_ok ((if_pos hh).symm.trans h)
    · rw [isWanted, Bool.eq_false_iff.2 hh, Bool.false_and]
      exact .inl ⟨Except.ok.inj (h.symm.trans (if_neg hh)), rfl⟩

/-! ### What a table comes to -/

/-- The entries of a table: one for each of its records that is wanted, in their order. -/
def Lists (store : SecretStore) (directory : String) (action : KeytabAction) (host : String)
    (records : List IdentityRecord) (entries : List KeytabEntry) : Prop :=
  List.Forall₂ (store.Tells directory action)
    (records.filter (store.isWanted directory action host)) entries

/-- A pass over records that comes to an end has met no malformed one, and lists the wanted ones. -/
theorem lists_of_forall₂ {records : List (Except Fault IdentityRecord)}
    {found : List (Option KeytabEntry)}
    (h : List.Forall₂ (fun x y => store.entryFor directory action host x = .ok y) records found) :
    ∃ rs, records = rs.map .ok ∧ Lists store directory action host rs (found.filterMap id) := by
  induction h with
  | nil => exact ⟨[], rfl, .nil⟩
  | cons hx _ ih =>
    obtain ⟨rs, rfl, hrs⟩ := ih
    obtain ⟨r, rfl, ⟨rfl, hw⟩ | ⟨e, rfl, hw, he⟩⟩ := entryFor_eq_ok hx
    · refine ⟨r :: rs, rfl, ?_⟩
      rw [Lists, List.filter_cons_of_neg (Bool.eq_false_iff.1 hw)]
      exact hrs
    · refine ⟨r :: rs, rfl, ?_⟩
      rw [Lists, List.filter_cons_of_pos hw]
      exact .cons he hrs

/-- Entries that are given are those of the wanted records of a table without malformed ones. -/
theorem lists_of_entries {entries : List KeytabEntry}
    (h : store.entries directory action host = .ok entries) :
    ∃ rs, store.records directory = .ok (rs.map .ok) ∧
      Lists store directory action host rs entries := by
  obtain ⟨records, hr, hm⟩ := bind_eq_ok_iff.1 h
  obtain ⟨found, hfound, rfl⟩ := map_eq_ok_iff.1 hm
  obtain ⟨rs, rfl, hrs⟩ := lists_of_forall₂ (mapM_eq_ok_iff.1 hfound)
  exact ⟨rs, hr, hrs⟩

/-- There are no entries because the table cannot be opened, or because of the first record that
spoils them. -/
theorem entries_eq_error_iff :
    store.entries directory action host = .error f ↔
      store.records directory = .error f ∨
      ∃ records, store.records directory = .ok records ∧
        FirstFailure (Spoils store directory action host) records f := by
  rw [SecretStore.entries, bind_eq_error_iff]
  simp only [entriesAmong, map_eq_error_iff, mapM_eq_error_iff, entryFor_eq_error_iff]

end SecretStore

namespace Publisher
variable {p : Publisher ω} {lookups : Lookups} {store : SecretStore} {directory host : String}
  {action : KeytabAction} {f : Fault}

/-! ### Reading and counting -/

theorem openRecords_yields :
    Op.Yields Desk.unread (openRecords store directory : Op (Desk ω) _) (store.records directory) :=
  Op.Yields.after (Op.yields_modify fun _ => rfl) (Op.yields_ofExcept _)

theorem readKeytab_yields {location : String} :
    Op.Yields Desk.unread (readKeytab store location : Op (Desk ω) _) (store.keytab location) :=
  Op.Yields.after (Op.yields_modify fun _ => rfl) (Op.yields_ofExcept _)

theorem entryOf_yields {r : IdentityRecord} :
    Op.Yields Desk.unread (entryOf store directory action r : Op (Desk ω) _)
      (store.entryOf directory action r) := by
  rw [entryOf.eq_def, SecretStore.entryOf.eq_def]
  cases action with
  | remove => exact Op.yields_pure _
  | set =>
    cases r.path with
    | none => exact Op.yields_pure _
    | some path => exact readKeytab_yields.map

theorem entryFor_yields (next : Except Fault IdentityRecord) :
    Op.Yields Desk.unread (entryFor store directory action host next : Op (Desk ω) _)
      (store.entryFor directory action host next) := by
  refine (Op.yields_ofExcept next).bind fun r _ => ?_
  split
  · exact entryOf_yields
  · exact Op.yields_pure none

/-- Going through records gives what they call for, and reads keytabs on the way. -/
theorem entriesFor_yields (records : List (Except Fault IdentityRecord)) :
    Op.Yields Desk.unread (entriesFor store directory action host records : Op (Desk ω) _)
      (store.entriesAmong directory action host records) :=
  (Op.Yields.mapM entryFor_yields records).map

/-- Taking entries reads files. They are counted if there are any to give. -/
theorem on_takeEntries (store : SecretStore) (directory : String) (action : KeytabAction)
    (host : String) (desk : Desk ω) :
    ∃ desk', desk'.unread = desk.unread ∧
      (takeEntries store directory action host).on desk =
        match store.entries directory action host with
        | .error f => (.error f, desk')
        | .ok entries => (.ok entries, desk'.count action entries.length) := by
  have hread : Op.Yields Desk.unread
      (openRecords store directory >>= entriesFor store directory action host : Op (Desk ω) _)
      (store.entries directory action host) :=
    openRecords_yields.bind fun records _ => entriesFor_yields records
  obtain ⟨hr, hd⟩ := hread desk
  refine ⟨_, hd, ?_⟩
  -- all reading comes before the counting, so it can be taken as one step
  have htake : (takeEntries store directory action host : Op (Desk ω) _) =
      (openRecords store directory >>= entriesFor store directory action host) >>= fun entries =>
        modify (fun desk => desk.count action entries.length) >>= fun _ => pure entries := by
    rw [bind_assoc]
    rfl
  rw [htake, Op.on_bind, ← hr]
  rcases (openRecords store directory >>= entriesFor store directory action host : Op (Desk ω) _).on
    desk with ⟨_ | entries, desk'⟩
  · rfl
  · rfl

/-- What is done with the desk for a command: its table is read, and its entries are counted. -/
theorem on_injectSecret (p : Publisher ω) (store : SecretStore) (action : KeytabAction)
    (host : String) (desk : Desk ω) (c : ExecutionCommand) :
    (p.injectSecret store action host).on (desk, c) =
      match c.param? p.secrets.dataDirectoryParam with
      | none => (.ok (), desk, c)
      | some directory =>
        match (takeEntries store directory action host).on desk with
        | (.error f, desk) => (.error f, desk, c)
        | (.ok entries, desk) => (.ok (), desk, { c with keytabs := c.keytabs ++ entries }) := by
  rw [injectSecret, Op.on_bind]
  show Op.on (match c.param? p.secrets.dataDirectoryParam with | none => _ | some directory => _) _ = _
  cases c.param? p.secrets.dataDirectoryParam with
  | none => rfl
  | some directory =>
    show (Op.focus Prod.fst _ _ >>= _).on (desk, c) = _
    simp only [Op.on_bind, Op.on_focus]
    rcases (takeEntries store directory action host).on desk with ⟨_ | entries, desk'⟩
    · rfl
    · rfl

/-- A command whose entries cannot be had is given back as it was, and nothing is counted. -/
theorem injectSecret_error {desk : Desk ω} {c : ExecutionCommand} {s : Desk ω × ExecutionCommand}
    (h : (p.injectSecret store action host).on (desk, c) = (.error f, s)) :
    s.2 = c ∧ s.1.unread = desk.unread := by
  rw [on_injectSecret] at h
  cases hd : c.param? p.secrets.dataDirectoryParam with
  | none =>
    rw [hd] at h
    cases h
  | some directory =>
    obtain ⟨desk', hread, htake⟩ := on_takeEntries store directory action host desk
    simp only [hd, htake] at h
    cases he : store.entries directory action host with
    | error g =>
      rw [he] at h
      cases h
      exact ⟨rfl, hread⟩
    | ok entries =>
      rw [he] at h
      cases h

/-! ### What a command is given -/

/-- The entries that an action calls for in the data directory of a command. -/
def entriesFrom (p : Publisher ω) (store : SecretStore) (action : KeytabAction) (host : String)
    (c : ExecutionCommand) : Except Fault (List KeytabEntry) :=
  match c.param? p.secrets.dataDirectoryParam with
  | none => .ok []
  | some directory => store.entries directory action host

/-- The entries that an execution command for a host is given. -/
def entriesGiven (p : Publisher ω) (lookups : Lookups) (store : SecretStore) (host : HostId)
    (c : ExecutionCommand) : Except Fault (List KeytabEntry) :=
  match p.keytabAction? c with
  | none => .ok []
  | some action =>
    match lookups.hostName? host with
    | none => .error (.unknownHost host)
    | some name => p.entriesFrom store action name c

/-- A routed order with the entries it is given. -/
def enrichment (p : Publisher ω) (lookups : Lookups) (store : SecretStore) (r : Routed) :
    Except Fault Routed :=
  match r.order with
  | .cancel _ => .ok r
  | .execution c => (p.entriesGiven lookups store r.host c).map fun entries =>
      { r with order := .execution { c with keytabs := c.keytabs ++ entries } }

theorem onItem_injectSecret_yields (p : Publisher ω) (store : SecretStore) (action : KeytabAction)
    (host : String) (c : ExecutionCommand) :
    Op.Yields Desk.outward (Op.onItem (p.injectSecret store action host) c)
      ((p.entriesFrom store action host c).map fun entries =>
        { c with keytabs := c.keytabs ++ entries }) := by
  intro desk
  rw [Op.on_onItem, on_injectSecret, entriesFrom]
  cases c.param? p.secrets.dataDirectoryParam with
  | none =>
    refine ⟨?_, rfl⟩
    show Except.ok c = .ok { c with keytabs := c.keytabs ++ [] }
    rw [List.append_nil]
  | some directory =>
    obtain ⟨desk', hread, htake⟩ := on_takeEntries store directory action host desk
    simp only [htake]
    cases store.entries directory action host with
    | error g => exact ⟨rfl, Desk.outward_of_unread hread⟩
    | ok entries =>
      have hout : desk'.outward = desk.outward := Desk.outward_of_unread hread
      exact ⟨rfl, hout⟩

/-- Enriching an order gives it its entries, and sends nothing. -/
theorem enrich_yields (p : Publisher ω) (lookups : Lookups) (store : SecretStore) (r : Routed) :
    Op.Yields Desk.outward (p.enrich lookups store r) (p.enrichment lookups store r) := by
  obtain ⟨host, cluster, order⟩ := r
  rw [enrich, enrichment]
  cases order with
  | cancel c => exact Op.yields_pure _
  | execution c =>
    simp only [entriesGiven]
    cases p.keytabAction? c with
    | none =>
      -- no entries are the entries of a command that stays as it is
      have hsame : ({ c with keytabs := c.keytabs ++ [] } : ExecutionCommand) = c := by
        rw [List.append_nil]
      simp only [Except.map, hsame]
      exact Op.yields_pure _
    | some action =>
      cases lookups.hostName? host with
      | none => exact Op.yields_throw _
      | some name =>
        have hgiven := (onItem_injectSecret_yields p store action name c).map
          (g := fun c => (⟨host, cluster, .execution c⟩ : Routed))
        rw [map_map] at hgiven
        exact hgiven

/-- Why an execution command for a host cannot be given its entries. -/
inductive Unenriched (p : Publisher ω) (lookups : Lookups) (store : SecretStore) (host : HostId)
    (c : ExecutionCommand) : Fault → Prop
  | unknownHost {action : KeytabAction} (ha : p.keytabAction? c = some action)
      (hn : lookups.hostName? host = none) : Unenriched p lookups store host c (.unknownHost host)
  | noTable {action : KeytabAction} {name directory : String} {f : Fault}
      (ha : p.keytabAction? c = some action) (hn : lookups.hostName? host = some name)
      (hd : c.param? p.secrets.dataDirectoryParam = some directory)
      (hr : store.records directory = .error f) : Unenriched p lookups store host c f
  | spoilt {action : KeytabAction} {name directory : String}
      {records : List (Except Fault IdentityRecord)} {f : Fault}
      (ha : p.keytabAction? c = some action) (hn : lookups.hostName? host = some name)
      (hd : c.param? p.secrets.dataDirectoryParam = some directory)
      (hr : store.records directory = .ok records)
      (hf : FirstFailure (SecretStore.Spoils store directory action name) records f) :
      Unenriched p lookups store host c f

theorem entriesGiven_eq_error_iff {host : HostId} {c : ExecutionCommand} :
    p.entriesGiven lookups store host c = .error f ↔ Unenriched p lookups store host c f := by
  rw [entriesGiven]
  constructor
  · intro h
    split at h
    next => cases h
    next action ha =>
      split at h
      next hn =>
        cases h
        exact .unknownHost ha hn
      next name hn =>
        rw [entriesFrom] at h
        split at h
        next => cases h
        next directory hd =>
          rcases SecretStore.entries_eq_error_iff.1 h with hr | ⟨records, hr, hf⟩
          · exact .noTable ha hn hd hr
          · exact .spoilt ha hn hd hr hf
  · rintro (⟨ha, hn⟩ | ⟨ha, hn, hd, hr⟩ | ⟨ha, hn, hd, hr, hf⟩)
    · simp only [ha, hn]
    · simp only [ha, hn, entriesFrom, hd]
      exact SecretStore.entries_eq_error_iff.2 (.inl hr)
    · simp only [ha, hn, entriesFrom, hd]
      exact SecretStore.entries_eq_error_iff.2 (.inr ⟨_, hr, hf⟩)

end Publisher
end FleetSync
