import FleetSync.Proofs.Settings.Overlaying
import Mathlib.Data.List.Forall2

/-!
Where the value of each field comes from.

Settings are resolved field by field (`Settings.resolves`). Of the layers that stand in line (the defaults, the
file that is configured, the further files in order, and the environment) the last one to give a field a value
decides, as long as neither that layer nor one after it displaces the field's section.

Each further file is laid over the settings as they are, and the environment over it again. So the settings of
before count as one layer that gives every field its value (`value?_ofSettings`), and a step with one more file
leaves the line resolved with this file before the environment (`Settings.Resolved.withFile`). From there the
run goes by induction on the files.
-/
namespace FleetSync

open Setting (Step)

/-! ### Layers of settings and of variables -/

namespace Layer

/-- Settings that are known give every field its value. -/
theorem value?_ofSettings (s : Settings) (f : Settings.Field) : (ofSettings s).value? f = some (f.of s) := by
  cases f <;> rfl

theorem not_displaces_ofSettings (s : Settings) (sectionName : String) : ¬ (ofSettings s).Displaces sectionName := by
  rintro ⟨e, he, h⟩
  obtain ⟨⟨name, t⟩, ht, rfl⟩ := List.mem_map.1 he
  have htable : t.isTable = true := by
    simp only [Settings.tree, Setting.entries, List.mem_cons, Prod.mk.injEq, List.not_mem_nil, or_false] at ht
    rcases ht with ⟨-, rfl⟩ | ⟨-, rfl⟩ | ⟨-, rfl⟩ | ⟨-, rfl⟩ <;> rfl
  simp [displacing, htable] at h

end Layer

namespace Settings.Field

/-- The variable of a field, in small letters. -/
def variableName (f : Field) : String := "agent_sync__" ++ f.sectionName ++ "__" ++ f.name

/-- A variable addresses a field. -/
def AddressedBy (f : Field) (name : String) : Prop :=
  Layer.variableAddress? name = some [.name f.sectionName, .name f.name]

theorem addressedBy_of_sameIgnoringCase {f : Field} {name : String}
    (h : Text.sameIgnoringCase name f.variableName = true) : f.AddressedBy name := by
  have hlower : Text.toAsciiLower name = Text.toAsciiLower f.variableName := of_decide_eq_true h
  rw [AddressedBy, Layer.variableAddress?, hlower]
  cases f <;> decide +kernel

end Settings.Field

namespace Layer
variable {env : OrdMap String String} {f : Settings.Field} {v : Setting}

theorem isTable_ofVariableText (text : String) : (ofVariableText text).isTable = false := by
  rw [ofVariableText]
  repeat' split
  all_goals rfl

/-- A variable gives its setting to the field that it addresses, and to no other. -/
theorem given?_ofVariableText (f : Settings.Field) (address : List Step) (text : String) :
    f.given? (address, ofVariableText text) =
      if address = [.name f.sectionName, .name f.name] then some (ofVariableText text) else none := by
  have htable := isTable_ofVariableText text
  generalize ofVariableText text = v at htable
  rw [Settings.Field.given?.eq_def]
  split
  next s n w heq =>
    cases heq
    simp [Setting.single?, htable]
  next s entries heq =>
    cases heq
    cases htable
  next hplace _ =>
    rw [if_neg]
    rintro rfl
    exact hplace _ _ v rfl

theorem mem_ofEnvironment_iff {e : List Step × Setting} :
    e ∈ ofEnvironment env ↔ ∃ name text, env.get? name = some text ∧ text ≠ "" ∧
      variableAddress? name = some e.1 ∧ ofVariableText text = e.2 := by
  simp only [ofEnvironment, List.mem_filterMap, Prod.exists, OrdMap.get?_eq_some_iff]
  refine exists_congr fun name => exists_congr fun text => and_congr_right fun _ => ?_
  by_cases h : text = ""
  · simp [h]
  · rw [if_neg h, Option.map_eq_some_iff]
    constructor
    · rintro ⟨address, haddress, rfl⟩
      exact ⟨h, haddress, rfl⟩
    · rintro ⟨-, haddress, htext⟩
      exact ⟨e.1, haddress, Prod.ext rfl htext⟩

/-- What the environment gives to a field, some variable with a text gives that addresses the field. -/
theorem variable_of_value? (h : (ofEnvironment env).value? f = some v) :
    ∃ name text, env.get? name = some text ∧ text ≠ "" ∧ f.AddressedBy name ∧ v = ofVariableText text := by
  rw [value?, lastGiven, Option.or_none] at h
  obtain ⟨e, he, hv⟩ := List.mem_filterMap.1 (List.mem_of_getLast? h)
  obtain ⟨name, text, hget, htext, haddress, hsetting⟩ := mem_ofEnvironment_iff.1 he
  obtain ⟨address, w⟩ := e
  obtain rfl : ofVariableText text = w := hsetting
  rw [given?_ofVariableText] at hv
  split at hv
  next hplace =>
    cases hv
    exact ⟨name, text, hget, htext, haddress.trans (congrArg some hplace), rfl⟩
  next => cases hv

/-- The environment gives a field a value if its variable has a text. -/
theorem isSome_value?_of_variable {name text : String} (hget : env.get? name = some text) (htext : text ≠ "")
    (hname : f.AddressedBy name) : ((ofEnvironment env).value? f).isSome = true := by
  have hmem : ([.name f.sectionName, .name f.name], ofVariableText text) ∈ ofEnvironment env :=
    mem_ofEnvironment_iff.2 ⟨name, text, hget, htext, hname, rfl⟩
  refine (isSome_lastGiven ..).2 (.inr ⟨_, hmem, ?_⟩)
  rw [given?_ofVariableText, if_pos rfl]
  rfl

end Layer

/-! ### Layers in line -/

namespace Settings
variable {line : List Layer} {l environment : Layer} {s s' : Settings}

/-- Each field has the value of the first layer in line that gives it one, unless that layer or one before it
displaces the field's section. -/
def Resolved (line : List Layer) (s : Settings) : Prop :=
  ∀ (f : Field) (above : List Layer) (winner : Layer) (below : List Layer) (v : Setting),
    line = above ++ winner :: below → (∀ l ∈ above, l.value? f = none) → winner.value? f = some v →
    (∀ l ∈ winner :: above, ¬ l.Displaces f.sectionName) → f.read? v = some (f.of s)

/-- What layers make when they are laid over one another is resolved by them, the last one first. -/
theorem resolved_of_ofLayers (h : ofLayers line.reverse = .ok s) : Resolved line s := by
  rintro f above winner below v rfl habove hv hdisplaced
  rw [ofLayers, List.reverse_append, List.reverse_cons, List.append_assoc, List.foldl_append] at h
  split at h
  next s' hs =>
    cases h
    refine (Field.heldIn_foldl (fun m hm => hdisplaced m ?_) hv (fun m hm => habove m ?_) _).read hs
    · simpa using hm
    · simpa using hm
  next => cases h

/-- With a further file, and the environment once more, the line has the file behind the environment. -/
theorem Resolved.withFile (h : Resolved (environment :: line) s)
    (hstep : Resolved [environment, l, .ofSettings s] s') : Resolved (environment :: l :: line) s' := by
  intro f above winner below v hline habove hv hdisplaced
  rcases above with _ | ⟨_, _ | ⟨_, above⟩⟩
  · -- the environment decides
    obtain ⟨rfl, -⟩ := List.cons.inj hline
    exact hstep f [] environment _ v rfl habove hv hdisplaced
  · -- the file decides
    obtain ⟨rfl, hbehind⟩ := List.cons.inj hline
    obtain ⟨rfl, -⟩ := List.cons.inj hbehind
    exact hstep f [environment] l _ v rfl habove hv hdisplaced
  · -- a layer behind the file decides, and its value is what the settings have already
    obtain ⟨rfl, hbehind⟩ := List.cons.inj hline
    obtain ⟨rfl, rfl⟩ := List.cons.inj hbehind
    simp only [List.forall_mem_cons] at habove hdisplaced
    obtain ⟨hwinner, henvironment, hfile, hdisplaced⟩ := hdisplaced
    have hread : f.read? v = some (f.of s) := by
      refine h f (environment :: above) winner below v rfl ?_ hv ?_
      · simpa using ⟨habove.1, habove.2.2⟩
      · simpa using ⟨hwinner, henvironment, hdisplaced⟩
    have hkept : f.read? (f.of s) = some (f.of s') := by
      refine hstep f [environment, l] (.ofSettings s) [] _ rfl ?_ (Layer.value?_ofSettings s f) ?_
      · simpa using ⟨habove.1, habove.2.1⟩
      · simpa using ⟨Layer.not_displaces_ofSettings s _, henvironment, hfile⟩
    rw [hread, ← hkept, Field.read?_of]

/-- Some layer in line is the first to give a field its value, if the last one in line gives all. -/
theorem exists_winner {f : Field} (hl : (l.value? f).isSome = true) (line : List Layer) :
    ∃ above winner below v, line ++ [l] = above ++ winner :: below ∧ (∀ m ∈ above, m.value? f = none) ∧
      winner.value? f = some v := by
  induction line with
  | nil =>
    obtain ⟨v, hv⟩ := Option.isSome_iff_exists.1 hl
    exact ⟨[], l, [], v, rfl, List.forall_mem_nil _, hv⟩
  | cons m line ih =>
    cases hm : m.value? f with
    | some v => exact ⟨[], m, line ++ [l], v, rfl, List.forall_mem_nil _, hm⟩
    | none =>
      obtain ⟨above, winner, below, v, hline, habove, hv⟩ := ih
      exact ⟨m :: above, winner, below, v, congrArg (m :: ·) hline, List.forall_mem_cons.2 ⟨hm, habove⟩, hv⟩

/-! ### Loading -/

section
variable {env : OrdMap String String} {files : Files} {names : List String}

/-- The layers of some files, one for each. -/
def Read (files : Files) (names : List String) (layers : List Layer) : Prop :=
  List.Forall₂ (fun name l => SettingsFile.layer files name = .ok l) names layers

theorem resolved_of_load (h : load env files = .ok s) :
    ∃ layers, Read files (env.get? pathVariable).toList layers ∧
      Resolved (.ofEnvironment env :: (layers ++ [.ofSettings {}])) s := by
  rw [load] at h
  cases hname : env.get? pathVariable with
  | none =>
    rw [hname] at h
    exact ⟨[], .nil, resolved_of_ofLayers h⟩
  | some name =>
    rw [hname] at h
    obtain ⟨l, hl, h⟩ := bind_eq_ok_iff.1 h
    exact ⟨[l], .cons hl .nil, resolved_of_ofLayers h⟩

theorem resolved_of_withFiles (h : Resolved (.ofEnvironment env :: line) s)
    (hrun : names.foldlM (fun s name => s.withFile env files name) s = .ok s') :
    ∃ layers, Read files names.reverse layers ∧ Resolved (.ofEnvironment env :: (layers ++ line)) s' := by
  induction names generalizing line s with
  | nil =>
    cases hrun
    exact ⟨[], .nil, h⟩
  | cons name names ih =>
    rw [List.foldlM_cons] at hrun
    obtain ⟨s₁, hs₁, hrun⟩ := bind_eq_ok_iff.1 hrun
    obtain ⟨l, hl, hlayers⟩ := bind_eq_ok_iff.1 hs₁
    obtain ⟨layers, hread, hresolved⟩ := ih (h.withFile (resolved_of_ofLayers hlayers)) hrun
    refine ⟨layers ++ [l], ?_, ?_⟩
    · rw [List.reverse_cons]
      exact List.rel_append hread (.cons hl .nil)
    · rwa [List.append_assoc]

end

/-- Settings are resolved field by field.

Of the environment, the further files from the last one back, the file that is configured, and the defaults, the
first to give a field a value decides, and the field has this value as it reads for it, unless that layer or one
before it displaces the field's section. The environment gives what a variable with a text gives that addresses
the field, and it gives a value if the variable of the field's own name has a text. Settings that are laid out as
a layer come back unchanged. Layers are taken in the order in which they are written; for any order of their entries
see `Loads.resolved`. -/
theorem resolves (env : OrdMap String String) (files : Files) (names : List String) :
    (∀ s, loadWith env files names = .ok s →
      ∃ layers, Read files (names.reverse ++ (env.get? pathVariable).toList) layers ∧
        ∀ f : Field, ∃ above winner below v,
          .ofEnvironment env :: (layers ++ [.ofSettings {}]) = above ++ winner :: below ∧
          (∀ l ∈ above, l.value? f = none) ∧ winner.value? f = some v ∧
          ((∀ l ∈ winner :: above, ¬ l.Displaces f.sectionName) → f.read? v = some (f.of s))) ∧
    (∀ f : Field,
      (∀ v, (Layer.ofEnvironment env).value? f = some v →
        ∃ name text, env.get? name = some text ∧ text ≠ "" ∧ f.AddressedBy name ∧ v = Layer.ofVariableText text) ∧
      ∀ name text, env.get? name = some text → text ≠ "" →
        Text.sameIgnoringCase name f.variableName = true → ((Layer.ofEnvironment env).value? f).isSome = true) ∧
    ∀ s : Settings, ofLayers [.ofSettings s] = .ok s ∧ ∀ f, (Layer.ofSettings s).value? f = some (f.of s) := by
  refine ⟨fun s h => ?_, fun f => ⟨fun v => Layer.variable_of_value?, fun name text hget htext hname => ?_⟩, fun s => ?_⟩
  · obtain ⟨loaded, hloaded, hrun⟩ := bind_eq_ok_iff.1 h
    obtain ⟨configured, hconfigured, hresolved⟩ := resolved_of_load hloaded
    obtain ⟨further, hfurther, hresolved⟩ := resolved_of_withFiles hresolved hrun
    refine ⟨further ++ configured, List.rel_append hfurther hconfigured, fun f => ?_⟩
    rw [← List.append_assoc] at hresolved
    have hdefault : ((Layer.ofSettings {}).value? f).isSome = true := by
      rw [Layer.value?_ofSettings]
      rfl
    obtain ⟨above, winner, below, v, hline, habove, hv⟩ :=
      exists_winner hdefault (.ofEnvironment env :: (further ++ configured))
    exact ⟨above, winner, below, v, hline, habove, hv, hresolved f above winner below v hline habove hv⟩
  · exact Layer.isSome_value?_of_variable hget htext (Field.addressedBy_of_sameIgnoringCase hname)
  · exact ⟨rfl, Layer.value?_ofSettings s⟩

/-- Files of the given names and contents. -/
def filesOf (contents : List (String × String)) : Files :=
  contents.foldl (fun files e => files.writeFile e.1 e.2.toUTF8.toList) {}

/-- An environment that names the configured file and sets one field. -/
def configuredEnvironment : OrdMap String String :=
  ((∅ : OrdMap String String).insert pathVariable "base.toml").insert "AGENT_SYNC__Topology__DESTINATION" "/e"

/-- The configured file and two further ones. -/
def threeFiles : Files := filesOf [
  ("base.toml", "[topology]\ndestination = \"/t\"\n[publisher]\nunassigned_cluster_id = 7\n"),
  ("first.toml", "[publisher]\ntrace_commands = 1\nunassigned_cluster_id = 8.0\n"),
  ("second.toml", "[PUBLISHER]\nDestination = \"/q\"\n")]

/-- What comes of them. -/
def resolvedSettings : Settings where
  topology := { destination := "/e" }
  publisher := { destination := "/q", unassignedClusterId := "8", traceCommands := true }

/-- Fields of one section come from different layers, and no section is displaced. -/
theorem resolves_fromFour :
    ∃ layers, Read threeFiles ["second.toml", "first.toml", "base.toml"] layers ∧
      ∀ f : Field, ∃ above winner below v,
        .ofEnvironment configuredEnvironment :: (layers ++ [.ofSettings {}]) = above ++ winner :: below ∧
        (∀ l ∈ above, l.value? f = none) ∧ winner.value? f = some v ∧ f.read? v = some (f.of resolvedSettings) := by
  obtain ⟨layers, hlayers, hfields⟩ :=
    (resolves configuredEnvironment threeFiles ["first.toml", "second.toml"]).1 resolvedSettings (by decide +kernel)
  -- neither the environment nor a file displaces a section
  have hsection : ∀ f : Field, f.sectionName ∈ fieldNames := by
    intro f
    cases f <;> decide
  have henvironment : ∀ sectionName ∈ fieldNames,
      ¬ (Layer.ofEnvironment configuredEnvironment).Displaces sectionName := by
    decide +kernel
  have hfiles : ∀ name ∈ ["second.toml", "first.toml", "base.toml"],
      (SettingsFile.layer threeFiles name).map (fun l => decide (∀ s ∈ fieldNames, ¬ l.Displaces s)) = .ok true := by
    decide +kernel
  have hline : ∀ l ∈ .ofEnvironment configuredEnvironment :: (layers ++ [.ofSettings {}]), ∀ f : Field,
      ¬ l.Displaces f.sectionName := by
    rw [List.forall_mem_cons, List.forall_mem_append, List.forall_mem_singleton]
    refine ⟨fun f => henvironment _ (hsection f), fun l hl f => ?_, fun f => Layer.not_displaces_ofSettings {} _⟩
    obtain ⟨name, hname, hread⟩ := exists_of_mem_right hlayers hl
    obtain ⟨l', hl', hnot⟩ := map_eq_ok_iff.1 (hfiles name hname)
    obtain rfl : l' = l := Except.ok.inj (hl'.symm.trans hread)
    exact of_decide_eq_true hnot _ (hsection f)
  refine ⟨layers, hlayers, fun f => ?_⟩
  obtain ⟨above, winner, below, v, heq, habove, hv, hread⟩ := hfields f
  refine ⟨above, winner, below, v, heq, habove, hv, hread fun l hl => hline l ?_ f⟩
  rw [heq]
  rcases List.mem_cons.1 hl with rfl | hl
  · exact List.mem_append_right _ List.mem_cons_self
  · exact List.mem_append_left _ hl

/-- A configured file that sets one field, and a further one that gives its section as an empty list. -/
def listOverTable : Files := filesOf [
  ("base.toml", "[publisher]\nunassigned_cluster_id = \"7\"\n"),
  ("over.toml", "publisher = []\n")]

/-- A section that is given as a list loses what its fields were: the only layer after the defaults to give this
one a value gives 7, and it has its default. -/
theorem displaced_section_resets :
    let env := (∅ : OrdMap String String).insert pathVariable "base.toml"
    let f := Field.unassignedClusterId
    ∃ later base v s,
      Read listOverTable ["over.toml", "base.toml"] [later, base] ∧
      loadWith env listOverTable ["over.toml"] = .ok s ∧
      (Layer.ofEnvironment env).value? f = none ∧ later.value? f = none ∧ base.value? f = some v ∧
      f.read? v = some (.text "7") ∧ f.of s = .text "-1" := by
  have hlater : (SettingsFile.layer listOverTable "over.toml").map
      (fun l => (l.value? .unassignedClusterId).isNone) = .ok true := by decide +kernel
  have hbase : (SettingsFile.layer listOverTable "base.toml").map
      (fun l => (l.value? .unassignedClusterId).bind Setting.asText?) = .ok (some "7") := by decide +kernel
  obtain ⟨later, hlater, hnone⟩ := map_eq_ok_iff.1 hlater
  obtain ⟨base, hbase, htext⟩ := map_eq_ok_iff.1 hbase
  obtain ⟨v, hv, htext⟩ := Option.bind_eq_some_iff.1 htext
  refine ⟨later, base, v, {}, .cons hlater (.cons hbase .nil), by decide +kernel, ?_, Option.isNone_iff_eq_none.1 hnone,
    hv, ?_, rfl⟩
  · rfl
  · simp [Field.read?, htext]

end Settings
end FleetSync
