import FleetSync.Proofs.Traversal
import FleetSync.Settings.Load

/-!
What laying layers over one another makes of a single field.

A field stands in the table of its section. Layers give values to fields (`Layer.value?`), by the address of the
field or in a table for the section, and a layer that gives a field no value leaves it what it is, unless it
displaces the section altogether (`Layer.Displaces`). So after some layers the field holds the last value given
(`Field.heldIn_foldl`), by one and the same argument for the entries of a table, for those of a layer and for
layers (`foldl_lastGiven`). Something may have been put inside a value since, but then the field cannot be read.
-/
namespace FleetSync

open Setting (Step)

namespace Setting

def isTable : Setting → Bool
  | .table _ => true
  | _ => false

/-- A table or a list. No field can be read from one. -/
def isCompound : Setting → Bool
  | .table _ | .list _ => true
  | _ => false

/-- The setting, if it takes the place of what it is laid over; a table does not. -/
def single? (s : Setting) : Option Setting := if s.isTable then none else some s

theorem isTable_of_single? {s : Setting} (h : s.single? = none) : s.isTable = true := by
  by_contra hs
  simp [single?, hs] at h

theorem isCompound_of_isTable {s : Setting} (h : s.isTable = true) : s.isCompound = true := by
  cases s <;> simp_all [isTable, isCompound]

theorem asText?_of_isCompound {s : Setting} (h : s.isCompound = true) : s.asText? = none := by
  cases s <;> simp_all [isCompound, asText?]

theorem asFlag?_of_isCompound {s : Setting} (h : s.isCompound = true) : s.asFlag? = none := by
  cases s <;> simp_all [isCompound, asFlag?]

/-! ### One field of a table -/

/-- A table holds a value under a name, or something has been put inside the value. -/
def Holds (table : Setting) (name : String) (v : Setting) : Prop :=
  ∃ entries w, table = .table entries ∧ entries.lookup name = some w ∧ (w = v ∨ w.isCompound = true)

variable {t v w : Setting} {name : String}

/-- What is put under the name of a value is the value itself, or is compound. -/
theorem Holds.withEntry_self (h : w = v ∨ w.isCompound = true) : (t.withEntry name w).Holds name v :=
  ⟨_, w, rfl, by rw [Entries.lookup_set, if_pos rfl], h⟩

theorem Holds.withEntry_of_ne (h : t.Holds name v) {other : String} (hne : name ≠ other) (w : Setting) :
    (t.withEntry other w).Holds name v := by
  obtain ⟨entries, u, rfl, hu, huv⟩ := h
  exact ⟨_, u, rfl, by rw [Entries.lookup_set, if_neg hne]; exact hu, huv⟩

theorem overlay_of_single? (h : v.single? = some w) (old : Option Setting) : overlay v old = w := by
  cases v <;> simp_all [single?, isTable, overlay]

theorem overlayEntries_eq_foldl (entries : List (String × Setting)) (t : Setting) :
    overlayEntries entries t = entries.foldl (fun t e => t.withEntry e.1 (overlay e.2 (t.child? e.1))) t := by
  induction entries generalizing t with
  | nil => rfl
  | cons e entries ih => rw [overlayEntries, ih, List.foldl_cons]

theorem isTable_overlayEntries (entries : List (String × Setting)) (h : t.isTable = true) :
    (overlayEntries entries t).isTable = true := by
  induction entries generalizing t with
  | nil => exact h
  | cons e entries ih =>
    rw [overlayEntries]
    exact ih rfl

/-- A table laid over a value leaves it what it is, or puts something inside. -/
theorem overlay_of_isTable (h : v.isTable = true) (w : Setting) :
    overlay v (some w) = w ∨ (overlay v (some w)).isCompound = true := by
  cases v with
  | table entries =>
    cases entries with
    | nil => exact .inl rfl
    | cons e entries => exact .inr (isCompound_of_isTable (isTable_overlayEntries entries rfl))
  | _ => cases h

theorem isCompound_put (v : Setting) (step : Step) (path : List Step) (old : Option Setting) :
    (put v (step :: path) old).isCompound = true := by
  cases step <;> rfl

/-- Laying a table, or anything inside, over the value of a name does not make the name hold another value. -/
theorem Holds.overlay_self (h : t.Holds name v) (hw : w.isTable = true) :
    (t.withEntry name (overlay w (t.child? name))).Holds name v := by
  obtain ⟨entries, u, rfl, hu, huv⟩ := h
  rw [child?, Setting.entries, hu]
  refine .withEntry_self ?_
  rcases overlay_of_isTable hw u with heq | hcompound
  · rwa [heq]
  · exact .inr hcompound

/-- The value that an entry of a table gives to a name. -/
def givenIn? (name : String) (e : String × Setting) : Option Setting := if e.1 = name then e.2.single? else none

/-- After the entries of a table, a name holds the last value given. -/
theorem holds_overlayEntries {entries : List (String × Setting)} {old : Option Setting}
    (hold : ∀ w, old = some w → t.Holds name w) (hv : lastGiven old (givenIn? name) entries = some v) :
    (overlayEntries entries t).Holds name v := by
  rw [overlayEntries_eq_foldl]
  refine foldl_lastGiven (P := fun v t => Holds t name v) ?_ ?_ hold hv
  · intro e _ w s hw
    rw [givenIn?] at hw
    split at hw
    next heq =>
      subst heq
      rw [overlay_of_single? hw]
      exact .withEntry_self (.inl rfl)
    next => cases hw
  · intro e _ w s hw hs
    rw [givenIn?] at hw
    split at hw
    next heq =>
      subst heq
      exact hs.overlay_self (isTable_of_single? hw)
    next hne => exact hs.withEntry_of_ne (Ne.symm hne) _

end Setting

/-! ### One field of the settings -/

/-- The fields that settings have. -/
inductive Settings.Field where
  | topologyTopic | configsTopic | commandsTopic | unassignedClusterId | customCommandParam | traceCommands
  | identityFileName | dataDirectoryParam
  deriving DecidableEq

namespace Settings.Field

def sectionName : Field → String
  | topologyTopic => "topology"
  | configsTopic => "configs"
  | commandsTopic | unassignedClusterId | customCommandParam | traceCommands => "publisher"
  | identityFileName | dataDirectoryParam => "secrets"

/-- The name of a field in its section. -/
def name : Field → String
  | topologyTopic | configsTopic | commandsTopic => "destination"
  | unassignedClusterId => "unassigned_cluster_id"
  | customCommandParam => "custom_command_param"
  | traceCommands => "trace_commands"
  | identityFileName => "identity_file_name"
  | dataDirectoryParam => "data_directory_param"

/-- The value of a field. -/
def of : Field → Settings → Setting
  | topologyTopic, s => .text s.topology.destination
  | configsTopic, s => .text s.configs.destination
  | commandsTopic, s => .text s.publisher.destination
  | unassignedClusterId, s => .text s.publisher.unassignedClusterId
  | customCommandParam, s => .text s.publisher.customCommandParam
  | traceCommands, s => .flag s.publisher.traceCommands
  | identityFileName, s => .text s.secrets.identityFileName
  | dataDirectoryParam, s => .text s.secrets.dataDirectoryParam

/-- The value that a field has if a setting is given for it. -/
def read? : Field → Setting → Option Setting
  | traceCommands, v => v.asFlag?.map .flag
  | _, v => v.asText?.map .text

/-- The value that an entry of a layer gives to a field, by the field's own address or in a table for its
section. A table for the field itself is no value. -/
def given? (f : Field) : List Step × Setting → Option Setting
  | ([.name s, .name n], v) => if s = f.sectionName ∧ n = f.name then v.single? else none
  | ([.name s], .table entries) =>
    if s = f.sectionName then lastGiven none (Setting.givenIn? f.name) entries else none
  | _ => none

end Settings.Field

namespace Layer

/-- The value that a layer gives to a field, the last one if it gives several. -/
def value? (l : Layer) (f : Settings.Field) : Option Setting := lastGiven none f.given? l

/-- An entry puts something other than a table in the place of a section, or of what is around it. -/
def displacing (sectionName : String) : List Step × Setting → Bool
  | (.name _ :: .name _ :: _, _) => false
  | (.name s :: .index _ :: _, _) => s = sectionName
  | ([.name s], v) => s = sectionName && !v.isTable
  | _ => true

/-- A layer displaces a section: it gives the section as a whole a list or a single value, or sets a position in
it as if it were a list. -/
def Displaces (l : Layer) (sectionName : String) : Prop := ∃ e ∈ l, displacing sectionName e = true

instance (l : Layer) (sectionName : String) : Decidable (l.Displaces sectionName) :=
  inferInstanceAs (Decidable (∃ e ∈ l, displacing sectionName e = true))

end Layer

namespace Settings.Field
variable {f : Field} {v w root : Setting} {l : Layer}

/-- In a tree a field holds a value, or something has been put inside the value. -/
def HeldIn (f : Field) (root v : Setting) : Prop :=
  ∃ table, root.child? f.sectionName = some table ∧ table.Holds f.name v

theorem child?_put (w : Setting) (s : String) (path : List Step) (root : Setting) (k : String) :
    (Setting.put w (.name s :: path) (some root)).child? k =
      if k = s then some (Setting.put w path (root.child? s)) else root.child? k :=
  Setting.child?_withEntry ..

/-- An entry that gives a field a value makes the field hold it, whatever was there. -/
theorem heldIn_put_of_given {e : List Step × Setting} (hv : f.given? e = some v) (root : Setting) :
    f.HeldIn (Setting.put e.2 e.1 (some root)) v := by
  obtain ⟨path, w⟩ := e
  rw [given?.eq_def] at hv
  split at hv
  next s n w' heq =>
    obtain ⟨rfl, rfl⟩ := Prod.mk.inj heq
    split at hv
    next hplace =>
      obtain ⟨rfl, rfl⟩ := hplace
      refine ⟨_, by rw [child?_put, if_pos rfl], ?_⟩
      rw [Setting.put, Setting.put, Setting.overlay_of_single? hv]
      exact .withEntry_self (.inl rfl)
    next => cases hv
  next s entries heq =>
    obtain ⟨rfl, rfl⟩ := Prod.mk.inj heq
    split at hv
    next hplace =>
      subst hplace
      refine ⟨_, by rw [child?_put, if_pos rfl], ?_⟩
      rw [Setting.put, Setting.overlay]
      exact Setting.holds_overlayEntries (fun _ h => by cases h) hv
    next => cases hv
  next => cases hv

/-- An entry that gives it none leaves the value, as long as it does not displace the section. -/
theorem HeldIn.put {e : List Step × Setting} (h : f.HeldIn root v) (hnone : f.given? e = none)
    (he : Layer.displacing f.sectionName e = false) : f.HeldIn (Setting.put e.2 e.1 (some root)) v := by
  obtain ⟨path, w⟩ := e
  obtain ⟨table, htable, hholds⟩ := h
  rcases path with _ | ⟨s | i, path⟩
  · cases he
  · by_cases hs : f.sectionName = s
    · subst hs
      refine ⟨_, by rw [child?_put, if_pos rfl], ?_⟩
      rw [htable]
      rcases path with _ | ⟨n | i, path⟩
      · -- a table for the section, with nothing for the field
        cases w with
        | table entries =>
          rw [given?, if_pos rfl] at hnone
          have hlast : lastGiven (some v) (Setting.givenIn? f.name) entries = some v := by
            rw [lastGiven_none_or, hnone, Option.none_or]
          refine Setting.holds_overlayEntries (fun u hu => ?_) hlast
          cases hu
          exact hholds
        | _ => simp [Layer.displacing, Setting.isTable] at he
      · -- something for one name in the section
        by_cases hn : f.name = n
        · subst hn
          rcases path with _ | ⟨step, path⟩
          · rw [given?, if_pos ⟨rfl, rfl⟩] at hnone
            exact hholds.overlay_self (Setting.isTable_of_single? hnone)
          · exact .withEntry_self (.inr (Setting.isCompound_put ..))
        · exact hholds.withEntry_of_ne hn _
      · simp [Layer.displacing] at he
    · refine ⟨table, ?_, hholds⟩
      rwa [child?_put, if_neg hs]
  · cases he

/-- After a layer that does not displace its section, a field holds the value that the layer gives it, or if
there is none, the value from before. -/
theorem heldIn_overlay (hdisplaced : ¬ l.Displaces f.sectionName) (old : Option Setting)
    (hold : ∀ w, old = some w → f.HeldIn root w) (hv : (l.value? f).or old = some v) :
    f.HeldIn (l.overlay root) v := by
  rw [Layer.value?, ← lastGiven_none_or] at hv
  refine foldl_lastGiven (P := fun v root => f.HeldIn root v) ?_ ?_ hold hv
  · exact fun e _ w root hw => heldIn_put_of_given hw root
  · intro e he w root hw hheld
    exact hheld.put hw (Bool.eq_false_iff.2 fun h => hdisplaced ⟨e, he, h⟩)

/-- After a layer that gives it a value a field holds this value, and it does so after further layers that give
none, unless one of them all displaces the section. -/
theorem heldIn_foldl {above : List Layer} (hdisplaced : ∀ m ∈ l :: above, ¬ m.Displaces f.sectionName)
    (hv : l.value? f = some v) (habove : ∀ m ∈ above, m.value? f = none) (root : Setting) :
    f.HeldIn ((l :: above).foldl (fun root l => l.overlay root) root) v := by
  have hlast : lastGiven none (Layer.value? · f) (l :: above) = some v := by
    rw [lastGiven_cons, hv, Option.some_or, lastGiven, List.filterMap_eq_nil_iff.2 habove]
    rfl
  refine foldl_lastGiven (P := fun v root => f.HeldIn root v) ?_ ?_ (fun _ h => by cases h) hlast
  · intro m hm w root hw
    exact heldIn_overlay (hdisplaced m hm) none (by simp) (by rw [hw, Option.some_or])
  · intro m hm w root hw hheld
    refine heldIn_overlay (hdisplaced m hm) (some w) (fun u hu => ?_) (by rw [hw, Option.none_or])
    cases hu
    exact hheld

/-! ### Reading it -/

theorem read?_of_isCompound (hw : w.isCompound = true) (f : Field) : f.read? w = none := by
  have htext := Setting.asText?_of_isCompound hw
  have hflag := Setting.asFlag?_of_isCompound hw
  cases f <;> simp [read?, htext, hflag]

/-- The value of a field reads as itself. -/
theorem read?_of (f : Field) (s : Settings) : f.read? (f.of s) = some (f.of s) := by
  cases f <;> rfl

section
variable {entries : List (String × Setting)}

/-- What is read under a name is read from what is there. -/
theorem field_of_lookup {α : Type} {n : String} {read : Setting → Option α} {absent x : α}
    (h : Setting.field read entries n absent = some x) (hw : entries.lookup n = some w) : read w = some x := by
  rwa [Setting.field, hw] at h

theorem of_topology {s : TopologySettings} (h : TopologySettings.ofTree? (.table entries) = some s) :
    Setting.field Setting.asText? entries "destination" ({} : TopologySettings).destination =
      some s.destination := by
  simp only [TopologySettings.ofTree?, Setting.fields?, Option.bind_eq_bind, Option.bind_some,
    Option.bind_eq_some_iff, Option.pure_def, Option.some.injEq] at h
  obtain ⟨destination, h, rfl⟩ := h
  exact h

theorem of_configs {s : ConfigsSettings} (h : ConfigsSettings.ofTree? (.table entries) = some s) :
    Setting.field Setting.asText? entries "destination" ({} : ConfigsSettings).destination =
      some s.destination := by
  simp only [ConfigsSettings.ofTree?, Setting.fields?, Option.bind_eq_bind, Option.bind_some,
    Option.bind_eq_some_iff, Option.pure_def, Option.some.injEq] at h
  obtain ⟨destination, h, rfl⟩ := h
  exact h

theorem of_publisher {s : PublisherSettings} (h : PublisherSettings.ofTree? (.table entries) = some s) :
    let text := Setting.field Setting.asText? entries
    let standard : PublisherSettings := {}
    text "destination" standard.destination = some s.destination ∧
      text "unassigned_cluster_id" standard.unassignedClusterId = some s.unassignedClusterId ∧
      text "custom_command_param" standard.customCommandParam = some s.customCommandParam ∧
      Setting.field Setting.asFlag? entries "trace_commands" standard.traceCommands = some s.traceCommands := by
  simp only [PublisherSettings.ofTree?, Setting.fields?, Option.bind_eq_bind, Option.bind_some,
    Option.bind_eq_some_iff, Option.pure_def, Option.some.injEq] at h
  obtain ⟨destination, hdestination, id, hid, param, hparam, trace, htrace, rfl⟩ := h
  exact ⟨hdestination, hid, hparam, htrace⟩

theorem of_secrets {s : SecretsSettings} (h : SecretsSettings.ofTree? (.table entries) = some s) :
    let text := Setting.field Setting.asText? entries
    let standard : SecretsSettings := {}
    text "identity_file_name" standard.identityFileName = some s.identityFileName ∧
      text "data_directory_param" standard.dataDirectoryParam = some s.dataDirectoryParam := by
  simp only [SecretsSettings.ofTree?, Setting.fields?, Option.bind_eq_bind, Option.bind_some,
    Option.bind_eq_some_iff, Option.pure_def, Option.some.injEq] at h
  obtain ⟨file, hfile, param, hparam, rfl⟩ := h
  exact ⟨hfile, hparam⟩

/-- A field that stands in the table of its section is read from there. -/
theorem read?_of_lookup {s : Settings} (hs : ofTree? root = some s)
    (htable : root.child? f.sectionName = some (.table entries)) (hw : entries.lookup f.name = some w) :
    f.read? w = some (f.of s) := by
  simp only [ofTree?, Option.bind_eq_bind, Option.bind_eq_some_iff, Option.pure_def, Option.some.injEq] at hs
  obtain ⟨topology, htopology, configs, hconfigs, publisher, hpublisher, secrets, hsecrets, rfl⟩ := hs
  cases f with
  | topologyTopic =>
    have hfield := of_topology (field_of_lookup htopology htable)
    simp [read?, of, field_of_lookup hfield hw]
  | configsTopic =>
    have hfield := of_configs (field_of_lookup hconfigs htable)
    simp [read?, of, field_of_lookup hfield hw]
  | commandsTopic =>
    obtain ⟨hfield, -, -, -⟩ := of_publisher (field_of_lookup hpublisher htable)
    simp [read?, of, field_of_lookup hfield hw]
  | unassignedClusterId =>
    obtain ⟨-, hfield, -, -⟩ := of_publisher (field_of_lookup hpublisher htable)
    simp [read?, of, field_of_lookup hfield hw]
  | customCommandParam =>
    obtain ⟨-, -, hfield, -⟩ := of_publisher (field_of_lookup hpublisher htable)
    simp [read?, of, field_of_lookup hfield hw]
  | traceCommands =>
    obtain ⟨-, -, -, hfield⟩ := of_publisher (field_of_lookup hpublisher htable)
    simp [read?, of, field_of_lookup hfield hw]
  | identityFileName =>
    obtain ⟨hfield, -⟩ := of_secrets (field_of_lookup hsecrets htable)
    simp [read?, of, field_of_lookup hfield hw]
  | dataDirectoryParam =>
    obtain ⟨-, hfield⟩ := of_secrets (field_of_lookup hsecrets htable)
    simp [read?, of, field_of_lookup hfield hw]

end

/-- Settings that are read from a tree have the values that their fields hold in it. -/
theorem HeldIn.read (h : f.HeldIn root v) {s : Settings} (hs : ofTree? root = some s) :
    f.read? v = some (f.of s) := by
  obtain ⟨_, htable, entries, w, rfl, hw, rfl | hcompound⟩ := h
  · exact read?_of_lookup hs htable hw
  · have hread := read?_of_lookup hs htable hw
    rw [read?_of_isCompound hcompound] at hread
    cases hread

end Settings.Field
end FleetSync
