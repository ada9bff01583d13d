import FleetSync.Controller.Basic
import FleetSync.Proofs.Path
import FleetSync.Proofs.Publisher.Dispatch
import FleetSync.Proofs.Publisher.Keytabs

/-!
Where keytab files are read.

Handing out keytabs reads a file for each record of the host that names one (`KeytabRead.Serves`). The file is
looked for below the data directory in a directory with the host's name, and nothing looks at that name before
it is joined to the data directory. So the file is inside the data directory exactly if the name leads
downwards (`KeytabRead.inside_iff`), as all bare names do. A host that is registered under a name with a step to
the parent is handed what lies beside the directory.

Every read of a dispatch is one that some command calls for (`Publisher.dispatch_tries`), and one that succeeds
has made all those reads (`Publisher.dispatch_leads`). Both are about what a pass over records, and one over
commands, adds to the files tried (`Desk.Tries`).
-/
namespace FleetSync

variable {ω : Type}

/-- A keytab file that is read for a record. -/
structure KeytabRead where
  directory : String
  record : IdentityRecord
  /-- Where agents install the keytab. -/
  path : String

namespace KeytabRead

def location (r : KeytabRead) : String := keytabLocation r.directory r.record.hostname r.path

/-- Handing out the keytabs of a host calls for the read: it is for a record of the host that names a path. -/
structure Serves (r : KeytabRead) (store : SecretStore) (host : String) : Prop where
  listed : ∃ records, store.records r.directory = .ok records ∧ .ok r.record ∈ records
  own : Text.sameIgnoringCase r.record.hostname host
  path : r.record.path = some r.path

/-- The text of a digest is a bare name. -/
theorem isName_digest (message : List UInt8) : Path.IsName (Hex.encode (Digest.Sha1.digest message)) := by
  have hdigit : ∀ c, Hex.value? c = none → c ∉ Hex.encode (Digest.Sha1.digest message) := by
    intro c hc hmem
    have hsome := Hex.value?_of_mem_encode hmem
    rw [hc] at hsome
    cases hsome
  refine ⟨fun hnil => ?_, hdigit '/' (by decide), fun h => ?_, fun h => ?_⟩
  · have hempty : Digest.Sha1.digest message = [] := Hex.encode_injective hnil
    exact List.cons_ne_nil _ _ hempty
  · exact hdigit '.' (by decide) (h ▸ List.mem_cons_self)
  · exact hdigit '.' (by decide) (h ▸ List.mem_cons_self)

/-- A keytab file is inside its data directory exactly if the host name of its record leads downwards. -/
theorem inside_iff (r : KeytabRead) :
    Path.Inside r.directory r.location ↔ Path.Descends r.directory r.record.hostname := by
  have hname : Path.IsName (String.ofList (Hex.encode (Digest.Sha1.digest r.path.toUTF8.toList))).toList := by
    rw [String.toList_ofList]
    exact isName_digest _
  rw [location, keytabLocation, Path.inside_join_iff hname, Path.within_join_iff]

/-- So it is inside if the host is known by a bare name. -/
theorem Serves.inside {r : KeytabRead} {store : SecretStore} {host : String} (h : r.Serves store host)
    (hhost : Path.isFileName host = true) : Path.Inside r.directory r.location := by
  rw [inside_iff]
  exact Path.descends_of_isFileName ((Path.isFileName_of_sameIgnoringCase h.own).trans hhost) r.directory

end KeytabRead

/-! ### What is tried -/

namespace Desk
variable {start desk : Desk ω} {asked : KeytabRead → Prop} {r : KeytabRead}

/-- Since some desk, only files have been tried that were asked for. -/
def Tries (start : Desk ω) (asked : KeytabRead → Prop) (desk : Desk ω) : Prop :=
  ∃ reads : List KeytabRead, desk.tried = start.tried ++ reads.map (·.location) ∧ ∀ r ∈ reads, asked r

/-- A certain file is among them. -/
def HasTried (start : Desk ω) (asked : KeytabRead → Prop) (r : KeytabRead) (desk : Desk ω) : Prop :=
  ∃ reads : List KeytabRead, desk.tried = start.tried ++ reads.map (·.location) ∧ (∀ r ∈ reads, asked r) ∧
    r.location ∈ reads.map (·.location)

theorem Tries.refl (desk : Desk ω) (asked : KeytabRead → Prop) : desk.Tries asked desk :=
  ⟨[], (List.append_nil _).symm, List.forall_mem_nil _⟩

theorem HasTried.tries (h : start.HasTried asked r desk) : start.Tries asked desk := by
  obtain ⟨reads, htried, hreads, -⟩ := h
  exact ⟨reads, htried, hreads⟩

theorem HasTried.mem (h : start.HasTried asked r desk) {reads : List KeytabRead}
    (htried : desk.tried = start.tried ++ reads.map (·.location)) : r.location ∈ reads.map (·.location) := by
  obtain ⟨reads', htried', -, hmem⟩ := h
  rwa [List.append_cancel_left (htried.symm.trans htried')]

/-- One more file. -/
theorem Tries.add (h : start.Tries asked desk) (hr : asked r) :
    start.HasTried asked r { desk with tried := desk.tried ++ [r.location] } := by
  obtain ⟨reads, htried, hreads⟩ := h
  refine ⟨reads ++ [r], ?_, List.forall_mem_append.2 ⟨hreads, List.forall_mem_singleton.2 hr⟩, ?_⟩
  · rw [htried, List.map_append, List.append_assoc]
    rfl
  · rw [List.map_append]
    exact List.mem_append_right _ List.mem_cons_self

/-- Whatever tries further files leaves those tried that were. -/
theorem HasTried.preserves {β : Type} {op : Op (Desk ω) β}
    (h : ∀ start : Desk ω, op.Preserves (start.Tries asked)) : op.Preserves (start.HasTried asked r) := by
  rintro desk ⟨reads, htried, hreads, hmem⟩
  obtain ⟨more, htried', hmore⟩ := h desk desk (Tries.refl desk asked)
  refine ⟨reads ++ more, ?_, List.forall_mem_append.2 ⟨hreads, hmore⟩, ?_⟩
  · rw [htried', htried, List.map_append, List.append_assoc]
  · rw [List.map_append]
    exact List.mem_append_left _ hmem

end Desk

namespace Publisher
variable {p : Publisher ω} {lookups : Lookups} {store : SecretStore} {directory host : String}
  {action : KeytabAction} {start : Desk ω} {asked : KeytabRead → Prop}

/-! ### For one record -/

theorem entryOf_tries {record : IdentityRecord}
    (h : ∀ path, action = .set → record.path = some path → asked ⟨directory, record, path⟩) :
    (entryOf store directory action record : Op (Desk ω) _).Preserves (start.Tries asked) := by
  rw [entryOf.eq_def]
  cases action with
  | remove => exact Op.preserves_pure _
  | set =>
    cases hpath : record.path with
    | none => exact Op.preserves_pure _
    | some path =>
      have hread : (readKeytab store (keytabLocation directory record.hostname path) :
          Op (Desk ω) _).Preserves (start.Tries asked) :=
        Op.Preserves.bind (fun _ htries => (htries.add (h path rfl hpath)).tries) fun _ =>
          Op.preserves_ofExcept _
      exact hread.bind fun _ => Op.preserves_pure _

theorem entryOf_leads {r : KeytabRead} (hpath : r.record.path = some r.path) (h : asked r) :
    (entryOf store r.directory .set r.record : Op (Desk ω) _).Leads (start.Tries asked)
      (start.HasTried asked r) := by
  have htry : (modify fun desk => { desk with tried := desk.tried ++ [r.location] } :
      Op (Desk ω) PUnit).Leads (start.Tries asked) (start.HasTried asked r) := by
    intro desk htries v t hrun
    cases hrun
    exact htries.add h
  simp only [entryOf.eq_def, hpath]
  exact (htry.bind_left fun _ => Op.preserves_ofExcept _).bind_left fun _ => Op.preserves_pure _

theorem entryFor_tries {next : Except Fault IdentityRecord}
    (h : ∀ record path, next = .ok record → Text.sameIgnoringCase record.hostname host → action = .set →
      record.path = some path → asked ⟨directory, record, path⟩) :
    (entryFor store directory action host next : Op (Desk ω) _).Preserves (start.Tries asked) := by
  cases next with
  | error f => exact fun _ htries => htries
  | ok record =>
    show (if Text.sameIgnoringCase record.hostname host then _ else pure none : Op (Desk ω) _).Preserves _
    split
    next hown => exact entryOf_tries fun path => h record path rfl hown
    next => exact Op.preserves_pure none

theorem entryFor_leads {r : KeytabRead} (hserves : r.Serves store host) (h : asked r) :
    (entryFor store r.directory .set host (.ok r.record) : Op (Desk ω) _).Leads (start.Tries asked)
      (start.HasTried asked r) := by
  have hentry : (entryFor store r.directory .set host (.ok r.record) : Op (Desk ω) _) =
      entryOf store r.directory .set r.record := if_pos hserves.own
  rw [hentry]
  exact entryOf_leads hserves.path h

/-! ### For one command -/

theorem openRecords_tries :
    (openRecords store directory : Op (Desk ω) _).Preserves (start.Tries asked) :=
  Op.Preserves.bind (fun _ htries => htries) fun _ => Op.preserves_ofExcept _

theorem count_tries (entries : List KeytabEntry) :
    (do modify fun desk => desk.count action entries.length
        return entries : Op (Desk ω) (List KeytabEntry)).Preserves (start.Tries asked) :=
  Op.Preserves.bind (fun _ htries => htries) fun _ => Op.preserves_pure _

/-- Taking entries tries files for records of the host only. -/
theorem takeEntries_tries
    (h : ∀ r : KeytabRead, action = .set → r.directory = directory → r.Serves store host → asked r) :
    (takeEntries store directory action host : Op (Desk ω) _).Preserves (start.Tries asked) := by
  refine openRecords_tries.bind_of_yields openRecords_yields fun records hrecords => ?_
  refine Op.Preserves.bind (Op.Preserves.bind (Op.Preserves.mapM_of_mem fun next hnext => ?_) fun _ =>
    Op.preserves_pure _) count_tries
  refine entryFor_tries fun record path hok hown haction hpath => ?_
  exact h ⟨directory, record, path⟩ haction rfl ⟨⟨records, hrecords, hok ▸ hnext⟩, hown, hpath⟩

/-- If it succeeds, it tries all of them. -/
theorem takeEntries_leads
    (h : ∀ r : KeytabRead, r.directory = directory → r.Serves store host → asked r) {r : KeytabRead}
    (hdirectory : r.directory = directory) (hserves : r.Serves store host) :
    (takeEntries store directory .set host : Op (Desk ω) _).Leads (start.Tries asked)
      (start.HasTried asked r) := by
  subst hdirectory
  refine Op.Leads.bind_right openRecords_tries fun desk records desk' hrun => ?_
  -- the records that were opened are those that the read is listed in
  have hrecords := openRecords_yields.eq_of_on hrun
  obtain ⟨records', hrecords', hmem⟩ := hserves.listed
  obtain rfl := Except.ok.inj (hrecords.symm.trans hrecords')
  have hnext : ∀ (start : Desk ω), ∀ next ∈ records,
      (entryFor store r.directory .set host next : Op (Desk ω) _).Preserves (start.Tries asked) :=
    fun start next hnext => entryFor_tries fun record path hok hown _ hpath =>
      h ⟨r.directory, record, path⟩ rfl ⟨⟨records, hrecords, hok ▸ hnext⟩, hown, hpath⟩
  have hpass := Op.Leads.mapM_of_mem hmem (entryFor_leads hserves (h r rfl hserves)) (hnext start)
    fun next hmem => Desk.HasTried.preserves (r := r) fun start => hnext start next hmem
  refine (hpass.bind_left fun _ => Op.preserves_pure _).bind_left fun entries => ?_
  exact Desk.HasTried.preserves fun _ => count_tries entries

/-- Handing out keytabs with a command calls for the read. -/
structure Draws (p : Publisher ω) (store : SecretStore) (action : KeytabAction) (host : String)
    (c : ExecutionCommand) (r : KeytabRead) : Prop where
  action : action = .set
  directory : c.param? p.secrets.dataDirectoryParam = some r.directory
  serves : r.Serves store host

section
variable {c : ExecutionCommand} (h : ∀ r, p.Draws store action host c r → asked r)
include h

theorem injectSecret_tries {desk : Desk ω} (hdesk : start.Tries asked desk) :
    start.Tries asked ((p.injectSecret store action host).on (desk, c)).2.1 := by
  rw [on_injectSecret]
  cases hdirectory : c.param? p.secrets.dataDirectoryParam with
  | none => exact hdesk
  | some directory =>
    have htake : start.Tries asked ((takeEntries store directory action host).on desk).2 :=
      takeEntries_tries (fun r haction hr hserves => h r ⟨haction, hr ▸ hdirectory, hserves⟩) desk hdesk
    simp only
    generalize (takeEntries store directory action host).on desk = outcome at htake ⊢
    obtain ⟨_ | entries, desk'⟩ := outcome
    · exact htake
    · exact htake

theorem injectSecret_leads {r : KeytabRead} (hr : p.Draws store action host c r) {desk : Desk ω}
    (hdesk : start.Tries asked desk) {s : Desk ω × ExecutionCommand}
    (hok : (p.injectSecret store action host).on (desk, c) = (.ok (), s)) : start.HasTried asked r s.1 := by
  obtain ⟨rfl, hdirectory, hserves⟩ := hr
  have htake := takeEntries_leads (fun r hr hserves => h r ⟨rfl, hr ▸ hdirectory, hserves⟩) rfl hserves desk hdesk
  rw [on_injectSecret, hdirectory] at hok
  simp only at hok
  generalize (takeEntries store r.directory .set host).on desk = outcome at htake hok
  obtain ⟨_ | entries, desk'⟩ := outcome
  · cases hok
  · cases hok
    exact htake entries desk' rfl

end

/-! ### For many commands -/

/-- A command for a host calls for the read: it asks for keytabs to be handed out from the directory. -/
structure CallsFor (p : Publisher ω) (lookups : Lookups) (store : SecretStore) (host : HostId)
    (c : ExecutionCommand) (r : KeytabRead) : Prop where
  asks : p.Asks c .set r.directory
  serves : ∃ name, lookups.hostName? host = some name ∧ r.Serves store name

section
variable {routed : Routed}
  (h : ∀ c r, routed.order = .execution c → p.CallsFor lookups store routed.host c r → asked r)
include h

theorem enrich_tries : (p.enrich lookups store routed).Preserves (start.Tries asked) := by
  rw [enrich]
  cases horder : routed.order with
  | cancel c => exact Op.preserves_pure routed
  | execution c =>
    cases haction : p.keytabAction? c with
    | none => simp only [haction]; exact Op.preserves_pure routed
    | some action =>
      simp only [haction]
      cases hname : lookups.hostName? routed.host with
      | none => exact fun _ hdesk => hdesk
      | some name =>
        refine Op.Preserves.bind (fun desk hdesk => ?_) fun _ => Op.preserves_pure _
        rw [Op.on_onItem]
        refine injectSecret_tries (fun r hr => ?_) hdesk
        obtain ⟨rfl, hdirectory, hserves⟩ := hr
        exact h c r horder ⟨⟨keytabAction?_eq_some_iff.1 haction, hdirectory⟩, name, hname, hserves⟩

theorem enrich_leads {c : ExecutionCommand} (horder : routed.order = .execution c) {r : KeytabRead}
    (hr : p.CallsFor lookups store routed.host c r) :
    (p.enrich lookups store routed).Leads (start.Tries asked) (start.HasTried asked r) := by
  obtain ⟨⟨hword, hdirectory⟩, name, hname, hserves⟩ := hr
  have haction := keytabAction?_eq_some_iff.2 hword
  simp only [enrich, horder, haction, hname]
  refine Op.Leads.bind_left (fun desk hdesk c' t hok => ?_) fun _ => Op.preserves_pure _
  rw [Op.on_onItem] at hok
  rcases hrun : (p.injectSecret store .set name).on (desk, c) with ⟨_ | _, s⟩ <;> rw [hrun] at hok
  · cases hok
  · cases hok
    refine injectSecret_leads (fun r hr => ?_) ⟨rfl, hdirectory, hserves⟩ hdesk hrun
    exact h c r horder ⟨⟨hword, hr.directory⟩, name, hname, hr.serves⟩

end

/-- Some command calls for the read. -/
def Asked (p : Publisher ω) (lookups : Lookups) (store : SecretStore) (commands : Commands)
    (r : KeytabRead) : Prop :=
  ∃ command ∈ commands, ∃ c, command.2.body? = some c ∧ p.CallsFor lookups store command.1 c r

/-- An order calls for what its command calls for: routing touches nothing that a read goes by. -/
theorem callsFor_routed_iff {command : HostId × AgentCommand} {routed : Routed}
    (hrouted : lookups.RoutedAs p.settings.unassignedClusterId command routed) {r : KeytabRead} :
    (∃ c, routed.order = .execution c ∧ p.CallsFor lookups store routed.host c r) ↔
      ∃ c, command.2.body? = some c ∧ p.CallsFor lookups store command.1 c r := by
  obtain ⟨host, command⟩ := command
  obtain ⟨k, -, rfl⟩ := hrouted
  cases command with
  | execution c | background c =>
    constructor
    · rintro ⟨_, ⟨⟩, hasks, hserves⟩
      exact ⟨c, rfl, hasks, hserves⟩
    · rintro ⟨_, ⟨⟩, hasks, hserves⟩
      exact ⟨_, rfl, hasks, hserves⟩
  | cancel c => exact iff_of_false nofun nofun

section
variable (p : Publisher ω) (lookups : Lookups) (store : SecretStore) (commands : Commands)

theorem routeAll_tries : (p.routeAll lookups commands).Preserves (start.Tries asked) := by
  refine Op.Preserves.mapM (fun command => ?_) commands
  refine Op.Preserves.bind (fun desk htries => ?_) fun _ => Op.preserves_ofExcept _
  show start.Tries asked (if p.settings.traceCommands then _ else desk)
  split
  · exact htries
  · exact htries

theorem sendAll_tries (events : OrdMap String CommandEvent) :
    (p.sendAll events).Preserves (start.Tries asked) := by
  refine Op.Preserves.bind (Op.Preserves.forM (fun e desk htries => ?_) events.values) fun _ =>
    Op.preserves_pure _
  rw [on_send]
  split
  · exact htries
  · exact htries

variable {p lookups store commands}

theorem enrich_tries_asked {routed : List Routed}
    (hrouted : List.Forall₂ (lookups.RoutedAs p.settings.unassignedClusterId) commands routed) :
    ∀ r ∈ routed, (p.enrich lookups store r).Preserves (start.Tries (p.Asked lookups store commands)) := by
  intro r hr
  obtain ⟨command, hmem, hroute⟩ := exists_of_mem_right hrouted hr
  refine enrich_tries fun c read horder hcalls => ?_
  exact ⟨command, hmem, (callsFor_routed_iff hroute).1 ⟨c, horder, hcalls⟩⟩

variable (p lookups store commands)

/-- A dispatch tries files only that its commands call for. -/
theorem dispatch_tries :
    (p.dispatch lookups store commands).Preserves (start.Tries (p.Asked lookups store commands)) := by
  refine (routeAll_tries p lookups commands).bind_of_yields (routeAll_yields p lookups commands)
    fun routed hroutes => ?_
  have hrouted := (mapM_eq_ok_iff.1 hroutes).imp fun _ _ => Lookups.route_eq_ok_iff.1
  exact Op.Preserves.bind (Op.Preserves.mapM_of_mem (enrich_tries_asked hrouted)) fun orders =>
    sendAll_tries p (Routed.bundle orders)

/-- If it succeeds, it has tried all of them. -/
theorem dispatch_leads {r : KeytabRead} (hr : p.Asked lookups store commands r) :
    (p.dispatch lookups store commands).Leads (start.Tries (p.Asked lookups store commands))
      (start.HasTried (p.Asked lookups store commands) r) := by
  refine Op.Leads.bind_right (routeAll_tries p lookups commands) fun desk routed desk' hrun => ?_
  have hroutes := (routeAll_yields p lookups commands).eq_of_on hrun
  have hrouted := (mapM_eq_ok_iff.1 hroutes).imp fun _ _ => Lookups.route_eq_ok_iff.1
  -- the read is made when the order of its command is enriched, and stays made while the others are
  obtain ⟨command, hcommand, hcalls⟩ := hr
  obtain ⟨order, horder, hroute⟩ := exists_of_mem_right hrouted.flip hcommand
  obtain ⟨c, hc, hcalls⟩ := (callsFor_routed_iff hroute).2 hcalls
  have hall : ∀ (start : Desk ω), ∀ order ∈ routed,
      (p.enrich lookups store order).Preserves (start.Tries (p.Asked lookups store commands)) :=
    fun _ => enrich_tries_asked hrouted
  have hone : (p.enrich lookups store order).Leads (start.Tries (p.Asked lookups store commands))
      (start.HasTried (p.Asked lookups store commands) r) :=
    enrich_leads (fun c read ho hread => ⟨command, hcommand, (callsFor_routed_iff hroute).1 ⟨c, ho, hread⟩⟩)
      hc hcalls
  have hpass := Op.Leads.mapM_of_mem horder hone (hall start) fun order hmem =>
    Desk.HasTried.preserves fun start => hall start order hmem
  exact hpass.bind_left fun orders => Desk.HasTried.preserves fun _ => sendAll_tries p (Routed.bundle orders)

end

/-! ### Where the files are -/

/-- Keytab files are read inside the data directory exactly where the host name of the record leads downwards.

Handing out keytabs with one command reads files for records of the host that name a path, and for no others;
if it succeeds, it reads those of all of them. So does a dispatch for all of its commands. Whatever is read is
inside its data directory exactly if the host name in the record, joined to the directory, leads downwards.
If all hosts are registered under bare names, all that is read is. -/
theorem keytab_reads_inside_iff (p : Publisher ω) (lookups : Lookups) (store : SecretStore) :
    (∀ (action : KeytabAction) (host : String) (c : ExecutionCommand) (desk : Desk ω),
      ∃ (reads : List KeytabRead) (after : Desk ω) (c' : ExecutionCommand) (result : Except Fault Unit),
        (p.injectSecret store action host).on (desk, c) = (result, after, c') ∧
        after.tried = desk.tried ++ reads.map (·.location) ∧
        (∀ r ∈ reads, p.Draws store action host c r ∧
          (Path.Inside r.directory r.location ↔ Path.Descends r.directory r.record.hostname)) ∧
        (result = .ok () → ∀ r, p.Draws store action host c r → r.location ∈ reads.map (·.location))) ∧
    ∀ (commands : Commands) (desk : Desk ω),
      ∃ (reads : List KeytabRead) (after : Desk ω) (result : Except Fault Nat),
        (p.dispatch lookups store commands).on desk = (result, after) ∧
        after.tried = desk.tried ++ reads.map (·.location) ∧
        (∀ r ∈ reads, p.Asked lookups store commands r ∧
          (Path.Inside r.directory r.location ↔ Path.Descends r.directory r.record.hostname)) ∧
        (∀ n, result = .ok n → ∀ r, p.Asked lookups store commands r → r.location ∈ reads.map (·.location)) ∧
        ((∀ host name, lookups.hostName? host = some name → Path.isFileName name = true) →
          ∀ r ∈ reads, Path.Inside r.directory r.location) := by
  constructor
  · intro action host c desk
    have hrefl := Desk.Tries.refl desk (p.Draws store action host c)
    have hdraws : ∀ r, p.Draws store action host c r → p.Draws store action host c r := fun _ => id
    have htries := injectSecret_tries hdraws hrefl
    rcases hrun : (p.injectSecret store action host).on (desk, c) with ⟨result, after, c'⟩
    rw [hrun] at htries
    obtain ⟨reads, htried, hreads⟩ := htries
    refine ⟨reads, after, c', result, rfl, htried, fun r hr => ⟨hreads r hr, r.inside_iff⟩, ?_⟩
    rintro rfl r hr
    exact (injectSecret_leads hdraws hr hrefl hrun).mem htried
  · intro commands desk
    have hrefl := Desk.Tries.refl desk (p.Asked lookups store commands)
    have htries := dispatch_tries p lookups store commands desk hrefl
    rcases hrun : (p.dispatch lookups store commands).on desk with ⟨result, after⟩
    rw [hrun] at htries
    obtain ⟨reads, htried, hreads⟩ := htries
    refine ⟨reads, after, result, rfl, htried, fun r hr => ⟨hreads r hr, r.inside_iff⟩, ?_, ?_⟩
    · rintro n rfl r hr
      exact (dispatch_leads p lookups store commands hr desk hrefl n after hrun).mem htried
    · intro hnames r hr
      obtain ⟨_, -, _, -, -, name, hname, hserves⟩ := hreads r hr
      exact hserves.inside (hnames _ name hname)

/-- A command that has keytabs handed out from a directory called data. -/
def handOut : ExecutionCommand where
  hostname := "h"
  role := "NAMENODE"
  roleCommand := "CUSTOM_COMMAND"
  taskId := 1
  commandId := "1-1"
  params := ((∅ : OrdMap String String).insert "custom_command" "SET_KEYTAB").insert "data_directory" "data"

/-- A record of a host of this name in that directory, and its keytab. -/
def keytabOf (hostname : String) : KeytabRead where
  directory := "data"
  record := { hostname, path := some "/etc/nn.keytab" }
  path := "/etc/nn.keytab"

/-- A controller of one host, and files that hold a record and its keytab. -/
def holding (name : String) (r : KeytabRead) : Controller where
  registry := ({} : Registry).registerHost 1 name
  files :=
    let table := "hostname,keytab_file_path\n" ++ r.record.hostname ++ "," ++ r.path ++ "\n"
    (({} : Files).writeFile "data/identity.dat" table.toUTF8.toList).writeFile r.location [1, 2, 3]

/-- What comes of handing out keytabs to its host. -/
def handedOut (c : Controller) : Except Fault Nat × Desk Channel :=
  (c.publisher.dispatch c.registry.lookups c.secretStore [(1, .execution handOut)]).on { world := c.channel }

/-- A host that is registered under a step to the parent is handed a keytab from beside the data directory. -/
theorem keytab_read_outside :
    let r := keytabOf "../other"
    let outcome := handedOut (holding "../other" r)
    outcome.1 = .ok 1 ∧ outcome.2.tried = [r.location] ∧ outcome.2.injected.get? "SET_KEYTAB" = some 1 ∧
      ¬ Path.Inside r.directory r.location := by
  have hrun : (handedOut (holding "../other" (keytabOf "../other"))).1 = .ok 1 ∧
      (handedOut (holding "../other" (keytabOf "../other"))).2.tried = [(keytabOf "../other").location] ∧
      (handedOut (holding "../other" (keytabOf "../other"))).2.injected.get? "SET_KEYTAB" = some 1 := by
    decide +kernel
  refine ⟨hrun.1, hrun.2.1, hrun.2.2, ?_⟩
  rw [KeytabRead.inside_iff, Path.Descends, if_neg (by decide)]
  decide

/-- Under a bare name it is handed the one from inside. -/
theorem keytab_reads_inside_iff_bareName :
    ∃ (reads : List KeytabRead) (after : Desk Channel),
      handedOut (holding "H1" (keytabOf "h1")) = (.ok 1, after) ∧
      after.tried = reads.map (·.location) ∧ (keytabOf "h1").location ∈ reads.map (·.location) ∧
      ∀ r ∈ reads, Path.Inside r.directory r.location := by
  let c := holding "H1" (keytabOf "h1")
  obtain ⟨reads, after, result, hrun, htried, -, hall, hinside⟩ :=
    (keytab_reads_inside_iff c.publisher c.registry.lookups c.secretStore).2 [(1, .execution handOut)]
      { world := c.channel }
  have hresult : (handedOut c).1 = .ok 1 := by decide +kernel
  obtain rfl : result = .ok 1 := (congrArg Prod.fst hrun).symm.trans hresult
  have hrecords : c.secretStore.records "data" = .ok [.ok (keytabOf "h1").record] := by decide +kernel
  have hserves : (keytabOf "h1").Serves c.secretStore "H1" :=
    ⟨⟨_, hrecords, List.mem_cons_self⟩, by decide, rfl⟩
  have hasks : c.publisher.Asks handOut .set "data" := ⟨⟨"SET_KEYTAB", by decide, by decide⟩, by decide⟩
  have hasked : c.publisher.Asked c.registry.lookups c.secretStore [(1, .execution handOut)] (keytabOf "h1") :=
    ⟨_, List.mem_cons_self, handOut, rfl, hasks, "H1", by decide, hserves⟩
  have hnames : ∀ host name, c.registry.lookups.hostName? host = some name → Path.isFileName name = true := by
    intro host name hname
    have hone : (if host = 1 then some "H1" else none) = some name := (OrdMap.get?_insert ..).symm.trans hname
    split at hone
    next =>
      cases hone
      decide
    next => cases hone
  exact ⟨reads, after, hrun, htried, hall 1 rfl _ hasked, hinside hnames⟩

end Publisher
end FleetSync
